import Conform.Usage

/-!
# Checking a module

What is wrong with the declarations of a module comes first, then what is wrong with its function
bodies and statements. What is found twice, with the same words about the same place, is kept once,
where it is first found. Nothing that is found stops the search for more.
-/

namespace Conform

/-- The findings on a module, and the scope of its declarations. -/
structure Outcome where
  diagnostics : List Diagnostic
  scope : Scope

def Outcome.isClean (o : Outcome) : Bool :=
  o.diagnostics.isEmpty

/-- The scope of a module on which nothing was found. -/
def Outcome.toExcept (o : Outcome) : Except (List Diagnostic) Scope :=
  if o.isClean then .ok o.scope else .error o.diagnostics

/-- Everything that is found on a module with the given declarations, in order and with
repetitions. -/
def Module.findings (w : Widening) (g : Globals) (m : Module) : List Diagnostic :=
  g.findings m ++ findingsOfItems w g g.scope.push m.items

/-- Checks a module under the given widening rules. -/
def check (w : Widening) (m : Module) : Outcome :=
  let g := m.globals
  ⟨(m.findings w g).eraseDups, g.scope⟩

end Conform
