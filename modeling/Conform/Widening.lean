import Conform.Scalar

/-!
# Widening rules

A scalar is accepted only where its own kind is declared, unless a rule admits it. Rules go one way
and do not chain: `bool → int` and `int → float` do not admit a `bool` where a `float` is declared.
-/

namespace Conform

/-- A table of the conversions that are admitted beyond identity. A rule between a kind and itself
is never stored, nor is one stored twice. -/
structure Widening where
  rules : List (Scalar × Scalar)
deriving DecidableEq

namespace Widening

def empty : Widening := ⟨[]⟩

/-- Admits values of kind `source` where `target` is declared. -/
def insert (w : Widening) (source target : Scalar) : Widening :=
  if source = target ∨ (source, target) ∈ w.rules then w
  else ⟨w.rules ++ [(source, target)]⟩

def ofList (rules : List (Scalar × Scalar)) : Widening :=
  rules.foldl (fun w rule => w.insert rule.1 rule.2) empty

/-- Whether a value of kind `actual` may stand where `expected` is declared. -/
def permits (w : Widening) (actual expected : Scalar) : Bool :=
  actual = expected ∨ (actual, expected) ∈ w.rules

def isEmpty (w : Widening) : Bool :=
  w.rules.isEmpty

/-- The pairs of different kinds that the table admits, in the order of the kinds. -/
def admitted (w : Widening) : List (Scalar × Scalar) :=
  Scalar.all.flatMap fun source =>
    (Scalar.all.filter fun target => source ≠ target && w.permits source target).map (source, ·)

@[simp] theorem permits_self (w : Widening) (k : Scalar) : w.permits k k = true := by
  simp [permits]

/-- Storing a rule admits that rule and changes nothing else. -/
theorem permits_insert (w : Widening) (source target a e : Scalar) :
    (w.insert source target).permits a e = true ↔
      w.permits a e = true ∨ (a = source ∧ e = target) := by
  unfold insert permits
  split <;> simp <;> grind

end Widening

end Conform
