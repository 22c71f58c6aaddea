import Conform.TyForm
import Conform.Diagnostic

/-!
# Resolving records

A record's type has the fields of its bases, in their order, and then its own; so it is known once
the records that it refers to are. They are settled first, depth first and in the order in which
they are referred to. A reference to a record that is itself waiting to be settled closes a cycle
and is reported, as is one to no record at all; the record then settles without a type, silently
if only records that it refers to have none. Each record is settled once, with the type that it has
from then on or with none.

The search ends since each step inward puts a declared record that was not on the path onto it.
-/

namespace Conform

def Ty.fields? : Ty → Option (List (Field Ty))
  | .record _ fields => some fields
  | _ => none

namespace RecordDecl

/-- The identifiers through which a record refers to others: its bases, then those in the
annotations of its fields. -/
def references (decl : RecordDecl) : List Ident :=
  decl.bases ++ decl.fields.flatMap fun field => field.form.references

/-- The fields of the record, inherited ones first, given the types of the records that it refers
to. -/
def fieldTypes? (known : String → Option Ty) (decl : RecordDecl) : Option (List (Field Ty)) := do
  let inherited ← decl.bases.mapM fun base => (known base.name).bind Ty.fields?
  let own ← decl.fields.mapM fun field => do
    return ⟨field.name.name, ← field.form.denote? known, field.required.getD decl.total⟩
  return inherited.flatten ++ own

end RecordDecl

def recordNamed? (records : List RecordDecl) (name : String) : Option RecordDecl :=
  records.find? fun decl => decl.name.name = name

/-- The records settled so far, latest first, each with its type if it has one, and what has been
reported on the way. -/
structure Resolution where
  settled : List (String × Option Ty)
  reports : List Diagnostic

namespace Resolution

def empty : Resolution := ⟨[], []⟩

def isSettled (r : Resolution) (name : String) : Bool :=
  r.settled.any fun entry => entry.1 = name

/-- The type with which a record is settled. -/
def typeOf? (r : Resolution) (name : String) : Option Ty :=
  (r.settled.find? fun entry => entry.1 = name).bind Prod.snd

def report (r : Resolution) (d : Diagnostic) : Resolution :=
  { r with reports := r.reports ++ [d] }

/-- Settles a record from the types of those that it refers to. -/
def settle (r : Resolution) (decl : RecordDecl) : Resolution :=
  let name := decl.name.name
  match decl.fieldTypes? r.typeOf? with
  | none => { r with settled := (name, none) :: r.settled }
  | some fields =>
    match Ty.record? (some name) fields with
    | .ok ty => { r with settled := (name, some ty) :: r.settled }
    | .error cause =>
      { r with settled := (name, none) :: r.settled }.report
        (.malformedType name cause decl.name.span)

/-- The records that are not on a path. -/
def offPath (records : List RecordDecl) (path : List String) : List RecordDecl :=
  records.filter fun decl => decl.name.name ∉ path

/-- A declared record that is put onto the path leaves fewer records off it. -/
theorem length_offPath_lt {records : List RecordDecl} {path : List String} {name : String}
    {decl : RecordDecl} (h : recordNamed? records name = some decl) (hp : name ∉ path) :
    (offPath records (name :: path)).length < (offPath records path).length := by
  have hname : decl.name.name = name := by
    have := List.find?_some h
    simpa using this
  have hmem : decl ∈ offPath records path := by
    simp [offPath, List.mem_of_find?_eq_some h, hname, hp]
  have hsub : offPath records (name :: path)
      = (offPath records path).filter fun decl => decl.name.name ≠ name := by
    simp only [offPath, List.filter_filter]
    congr 1
    funext decl
    simp [not_or]
  rw [hsub]
  exact List.length_filter_lt_length_iff_exists.mpr ⟨decl, hmem, by simp [hname]⟩

/-- Follows a reference, with the records on `path` waiting for it. -/
def visit (records : List RecordDecl) (path : List String) (r : Resolution) (ref : Ident) :
    Resolution :=
  match _h : recordNamed? records ref.name with
  | none => r.report (.unknownType ref.name ref.span)
  | some decl =>
    if _hp : ref.name ∈ path then r.report (.recursiveRecord ref.name ref.span)
    else if r.isSettled ref.name then r
    else (decl.references.foldl (visit records (ref.name :: path)) r).settle decl
termination_by (offPath records path).length
decreasing_by exact length_offPath_lt (by assumption) (by assumption)

/-- The resolution of all records, each in turn. -/
def all (records : List RecordDecl) : Resolution :=
  records.foldl (fun r decl => r.visit records [] decl.name) empty

end Resolution

end Conform
