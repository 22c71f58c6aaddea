import Conform.Proofs.Conforms
import Conform.Proofs.WellFormed

/-!
# Inheritance

A record names its bases, and its type has their fields before its own. Types are compared by
structure, so that a record inherits from another one says nothing about acceptance by itself. It
follows all the same: **where a base is expected, at any distance, the record is accepted**, and a
dict literal of the record is one of the base once the entries of other fields are taken away
(`Module.ancestor_accepts`).

The step along one base and the run along several carry the same fact: the fields of the one are
among the fields of the other, with their types and with their own markers (`RecordType.base`,
`RecordType.ancestor`). Two things from elsewhere make it enough. No name repeats among the fields
of the record, so a search for the name of an inherited field finds that field, whatever stands
before it; and its type is well formed, so it is accepted for itself.
-/

namespace Conform

open Relation (TransGen)

variable {w : Widening}

/-! ## Entries of some fields -/

/-- The entries that are ones of a field. -/
def declaredEntries (fields : List (Field Ty)) (entries : List (Entry Expr)) : List (Entry Expr) :=
  entries.filter fun entry => (fieldNamed? fields entry.key).isSome

/-- A dict literal of a record is, less the entries of other fields, one of any record with some of
its fields. -/
theorem Conforms.of_subset {Γ : Context} {fields others : List (Field Ty)} (hsub : fields ⊆ others)
    {m n : Option String} {entries : List (Entry Expr)} {span : Span}
    (h : Conforms w Γ (.record n others) (.dict entries span)) :
    Conforms w Γ (.record m fields) (.dict (declaredEntries fields entries) span) := by
  cases h with
  | dict hrequired hvalues _ =>
    rw [declaredEntries, ← List.filterMap_eq_filter]
    apply Conforms.dict_filterMap
    · intro entry made hmade
      obtain ⟨rfl, _⟩ := Option.guard_eq_some_iff.mp hmade
      rfl
    · intro entry
      rw [Option.isSome_guard, isSome_fieldNamed?_iff]
    · intro field hfield
      exact hrequired field (hsub hfield)
    · intro field hfield entry hcounts made hmade
      obtain ⟨rfl, _⟩ := Option.guard_eq_some_iff.mp hmade
      exact hvalues field (hsub hfield) entry hcounts

/-! ## Bases -/

/-- A record with one name has a base with another name. -/
def Extends (records : List RecordDecl) (name other : String) : Prop :=
  ∃ decl ∈ records, decl.name.name = name ∧ ∃ base ∈ decl.bases, base.name = other

/-- The fields of a record include those of each base. -/
theorem RecordDecl.HasFields.base {types : String → Ty → Prop} {decl : RecordDecl}
    {fields : List (Field Ty)} (h : decl.HasFields types fields) {base : Ident}
    (hbase : base ∈ decl.bases) :
    ∃ name inherited, types base.name (.record name inherited) ∧ inherited ⊆ fields := by
  obtain ⟨all, own, rfl, hbases, _⟩ := h
  obtain ⟨inherited, hmem, name, hty⟩ := exists_of_forall₂ hbases hbase
  refine ⟨name, inherited, hty, fun field hfield => ?_⟩
  exact List.mem_append_left _ (List.mem_flatten.mpr ⟨inherited, hmem, hfield⟩)

namespace RecordType

variable {records : List RecordDecl} {name other : String} {ty : Ty} {n : Option String}
  {fields : List (Field Ty)}

section

variable (hnodup : (records.map fun decl => decl.name.name).Nodup)
  (hty : RecordType records name (.record n fields))

include hnodup hty

/-- The bases of a record with a type have types themselves, and the fields of each are among its
own. -/
theorem base (h : Extends records name other) :
    ∃ inherited, RecordType records other (.record (some other) inherited) ∧
      inherited ⊆ fields := by
  obtain ⟨decl, hmem, hname, base, hbase, rfl⟩ := h
  obtain ⟨decl', hmem', hname', fields', hfields, _, heq⟩ := recordType_iff.mp hty
  obtain rfl := decl_unique hnodup hmem' hmem (hname'.trans hname.symm)
  obtain ⟨_, rfl⟩ := Ty.record.inj heq
  obtain ⟨shown, inherited, hbaseTy, hsub⟩ := hfields.base hbase
  obtain ⟨_, hshown⟩ := hbaseTy.exists_record
  rw [(Ty.record.inj hshown).1] at hbaseTy
  exact ⟨inherited, hbaseTy, hsub⟩

/-- So it is along any number of bases. -/
theorem ancestor (h : TransGen (Extends records) name other) :
    ∃ inherited, RecordType records other (.record (some other) inherited) ∧
      inherited ⊆ fields := by
  induction h with
  | single h => exact hty.base hnodup h
  | tail _ h ih =>
    obtain ⟨inherited, hinherited, hsub⟩ := ih
    obtain ⟨further, hfurther, hsub'⟩ := hinherited.base hnodup h
    exact ⟨further, hfurther, List.Subset.trans hsub' hsub⟩

end

end RecordType

namespace Module

/-- A registered record is accepted wherever one that it inherits from is expected, and so is each
of its dict literals less the entries of other fields. -/
theorem ancestor_accepts (w : Widening) (m : Module) {name ancestor : String} {ty : Ty}
    (hty : (check w m).scope.Registers name ty)
    (hinherits : TransGen (Extends m.recordsInForce) name ancestor) :
    ∃ fields, (check w m).scope.Registers ancestor (.record (some ancestor) fields) ∧
      (∀ w', (Ty.record (some ancestor) fields).mismatch? w' ty = none) ∧
      ∀ w' scope entries span, ty.valueMismatch? w' scope (.dict entries span) = none →
        (Ty.record (some ancestor) fields).valueMismatch? w' scope
          (.dict (declaredEntries fields entries) span) = none := by
  have htype := registers_iff.mp hty
  obtain ⟨fields, rfl⟩ := htype.exists_record
  obtain ⟨inherited, hancestor, hsub⟩ := htype.ancestor m.nodup_recordsInForce hinherits
  refine ⟨inherited, registers_iff.mpr hancestor, fun w' => ?_, fun w' scope entries span h => ?_⟩
  · rw [mismatch?_eq_none_iff]
    cases htype.wellFormed with
    | record hnodup hfields =>
      exact .of_subset hnodup hsub (fun field hfield => .refl (hfields field (hsub hfield))) _ _
  · rw [valueMismatch?_eq_none_iff scope.fits_context] at h ⊢
    exact h.of_subset hsub

/-- A record declaration whose bases and fields are given by their names and those of their
types. -/
def derivedRecord (name : String) (bases : List String) (total : Bool)
    (fields : List (String × String)) : RecordDecl :=
  ⟨⟨name, ⟨0, 1⟩⟩, bases.map fun base => ⟨base, ⟨0, 1⟩⟩, total,
    fields.map fun (field, ty) =>
      ⟨⟨field, ⟨0, 1⟩⟩, .named ⟨ty, ⟨0, 1⟩⟩, none, ⟨0, 1⟩⟩,
    ⟨0, 1⟩⟩

/-- Employees are persons, who have a name and may have an age. -/
def personnel : Module :=
  ⟨[.record (derivedRecord "Employee" ["Person"] true [("office", "str")]),
    .record (derivedRecord "Person" ["Named", "Aged"] true []),
    .record (derivedRecord "Named" [] true [("name", "str")]),
    .record (derivedRecord "Aged" [] false [("age", "int")])]⟩

/-- The type of the employees. -/
def employee : Ty :=
  .record (some "Employee")
    [⟨"name", .scalar .str, true⟩, ⟨"age", .scalar .int, false⟩, ⟨"office", .scalar .str, true⟩]

/-- The entries of an employee of no known age. -/
def clerk : List (Entry Expr) :=
  [⟨"office", .scalar .str ⟨0, 1⟩, ⟨0, 1⟩⟩, ⟨"name", .scalar .str ⟨1, 2⟩, ⟨1, 2⟩⟩]

/-- What is expected to have an age at most may be an employee, two bases further down, where the
age stands between other fields. -/
theorem ancestor_accepts_personnel :
    (check .empty personnel).scope.Registers "Employee" employee ∧
      TransGen (Extends personnel.recordsInForce) "Employee" "Aged" ∧
      employee.valueMismatch? .empty .empty (.dict clerk ⟨0, 2⟩) = none ∧
      ∃ fields, (check .empty personnel).scope.Registers "Aged" (.record (some "Aged") fields) ∧
        (Ty.record (some "Aged") fields).mismatch? .empty employee = none ∧
        (Ty.record (some "Aged") fields).valueMismatch? .empty .empty
          (.dict (declaredEntries fields clerk) ⟨0, 2⟩) = none := by
  have hemployee : (check .empty personnel).scope.Registers "Employee" employee := by
    apply Option.map_eq_some_iff.mp
    decide +kernel
  have hforce : personnel.recordsInForce = personnel.records :=
    recordsInForce_of_nodup (by decide)
  have hperson : Extends personnel.recordsInForce "Employee" "Person" := by
    rw [hforce]
    exact ⟨_, .head _, rfl, _, .head _, rfl⟩
  have haged : Extends personnel.recordsInForce "Person" "Aged" := by
    rw [hforce]
    exact ⟨_, .tail _ (.head _), rfl, _, .tail _ (.head _), rfl⟩
  have hinherits : TransGen (Extends personnel.recordsInForce) "Employee" "Aged" :=
    .tail (.single hperson) haged
  have hclerk : employee.valueMismatch? .empty .empty (.dict clerk ⟨0, 2⟩) = none := by
    decide +kernel
  obtain ⟨fields, hregisters, htype, hliteral⟩ :=
    ancestor_accepts .empty personnel hemployee hinherits
  exact ⟨hemployee, hinherits, hclerk, fields, hregisters, htype .empty,
    hliteral .empty .empty clerk ⟨0, 2⟩ hclerk⟩

end Module

end Conform
