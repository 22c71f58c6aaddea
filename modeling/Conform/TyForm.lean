import Conform.Tree.Basic
import Conform.Ty.Basic

/-!
# What annotations mean

An annotation is a scalar keyword, the name of a record or a callable form of annotations. The
record names in it are its references; once they have types, so has the annotation. The parameters
of a callable form have no names of their own and are called `arg0`, `arg1` and so on.
-/

namespace Conform

mutual

/-- The identifiers in an annotation that are not scalar keywords, in order. -/
def TyForm.references : TyForm → List Ident
  | .named ident => if (Scalar.ofKeyword? ident.name).isSome then [] else [ident]
  | .callable params returns _ => TyForm.referencesAll params ++ returns.references

def TyForm.referencesAll : List TyForm → List Ident
  | [] => []
  | form :: rest => form.references ++ TyForm.referencesAll rest

end

/-- Parameters with the given types, named by their positions. -/
def positional (types : List Ty) : List (Param Ty) :=
  types.mapIdx fun index ty => ⟨"arg" ++ Nat.repr index, ty⟩

mutual

/-- The type that an annotation denotes, given the types of the records it refers to. -/
def TyForm.denote? (known : String → Option Ty) : TyForm → Option Ty
  | .named ident =>
    match Scalar.ofKeyword? ident.name with
    | some kind => some (.scalar kind)
    | none => known ident.name
  | .callable params returns _ => do
    let params ← TyForm.denoteAll? known params
    let returns ← returns.denote? known
    (Ty.callable? (positional params) returns).toOption

def TyForm.denoteAll? (known : String → Option Ty) : List TyForm → Option (List Ty)
  | [] => some []
  | form :: rest => do
    return (← form.denote? known) :: (← TyForm.denoteAll? known rest)

end

end Conform
