import Conform.Diagnostic
import Conform.Tree.Basic

/-!
# Definitions in force

Records and functions share one space of names. The first declaration of a name is its definition
and stays in force; each later one is a redefinition, and so is an assignment of a top-level
statement to a declared name.
-/

namespace Conform

/-- The name that an item declares. -/
def Item.declared? : Item → Option Ident
  | .function decl => some decl.name
  | .record decl => some decl.name
  | .stmt _ => none

def identNamed? (idents : List Ident) (name : String) : Option Ident :=
  idents.find? fun ident => ident.name = name

/-- Each item with the definition that has taken its name before it, if there is one. The
definitions before all of the items are `taken`. -/
def rank (taken : List Ident) : List Item → List (Item × Option Ident)
  | [] => []
  | item :: rest =>
    match item.declared? with
    | none => (item, none) :: rank taken rest
    | some ident =>
      match identNamed? taken ident.name with
      | some first => (item, some first) :: rank taken rest
      | none => (item, none) :: rank (ident :: taken) rest

namespace Module

/-- The names that the items of a module declare, in order. -/
def declared (m : Module) : List Ident :=
  m.items.filterMap Item.declared?

/-- Each item with the definition that has taken its name before it, if there is one. -/
def ranked (m : Module) : List (Item × Option Ident) :=
  rank [] m.items

/-- The declarations of names that are taken. -/
def redefinitions (m : Module) : List Diagnostic :=
  m.ranked.filterMap fun (item, first?) => do
    let ident ← item.declared?
    let first ← first?
    return .duplicateDefinition ident.name ident.span first.span

/-- The records in force, in order. -/
def recordsInForce (m : Module) : List RecordDecl :=
  m.ranked.filterMap fun
    | (.record decl, none) => some decl
    | _ => none

/-- The functions in order, each with whether it is in force. -/
def functionsRanked (m : Module) : List (FunctionDecl × Bool) :=
  m.ranked.filterMap fun
    | (.function decl, first?) => some (decl, first?.isNone)
    | _ => none

def assignments (m : Module) : List Assignment :=
  m.items.filterMap fun
    | .stmt (.assign assignment) => some assignment
    | _ => none

end Module

end Conform
