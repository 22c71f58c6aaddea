import Conform.Proofs.Assignable
import Conform.Proofs.Build
import Conform.Proofs.Registered

/-!
# Well-formed types

A type is well formed if, at every depth, no record in it names a field twice and no callable a
parameter twice. A search by name then finds the one part with that name, which is all that
`Ty.mismatch?` needs to accept a type where that same type is expected (`Assignable.refl`).

Whoever builds types through `Ty.record?` and `Ty.callable?` builds no others. The checker does so
too, but in pieces: a record takes over the fields of its bases, and a callable form makes up the
names of its parameters. **Every type that a module registers is well formed**
(`Module.wellFormed_of_registers`), by induction on how the declarations give it: the types that a
declaration reads are well formed, hence so are its fields, and their names are different because a
record that repeats one has no type.
-/

namespace Conform

variable {w : Widening}

/-- No record in a type names a field twice and no callable a parameter twice, at any depth. -/
inductive Ty.WellFormed : Ty → Prop
  | scalar (kind : Scalar) : WellFormed (.scalar kind)
  | record {name : Option String} {fields : List (Field Ty)}
      (hnodup : (fields.map Field.name).Nodup) (hfields : ∀ field ∈ fields, field.ty.WellFormed) :
      WellFormed (.record name fields)
  | callable {params : List (Param Ty)} {returns : Ty} (hnodup : (params.map Param.name).Nodup)
      (hparams : ∀ param ∈ params, param.ty.WellFormed) (hreturns : returns.WellFormed) :
      WellFormed (.callable params returns)

theorem Ty.wellFormed_record_iff {name : Option String} {fields : List (Field Ty)} :
    (Ty.record name fields).WellFormed ↔
      (fields.map Field.name).Nodup ∧ ∀ field ∈ fields, field.ty.WellFormed := by
  constructor
  · intro h
    cases h with
    | record hnodup hfields => exact ⟨hnodup, hfields⟩
  · intro h
    exact .record h.1 h.2

theorem Ty.wellFormed_callable_iff {params : List (Param Ty)} {returns : Ty} :
    (Ty.callable params returns).WellFormed ↔
      (params.map Param.name).Nodup ∧ (∀ param ∈ params, param.ty.WellFormed) ∧
        returns.WellFormed := by
  constructor
  · intro h
    cases h with
    | callable hnodup hparams hreturns => exact ⟨hnodup, hparams, hreturns⟩
  · intro h
    exact .callable h.1 h.2.1 h.2.2

/-- Among fields with different names the one found is the only one with its name. -/
theorem fieldNamed?_eq_some_iff {fields : List (Field Ty)}
    (hnodup : (fields.map Field.name).Nodup) {name : String} {field : Field Ty} :
    fieldNamed? fields name = some field ↔ field ∈ fields ∧ field.name = name :=
  find?_key_eq_some_iff hnodup

/-- A name is found exactly if it is that of a field. -/
theorem isSome_fieldNamed?_iff {fields : List (Field Ty)} {name : String} :
    (fieldNamed? fields name).isSome = true ↔ ∃ field ∈ fields, field.name = name := by
  simp [fieldNamed?, List.find?_isSome]

/-- A record is accepted wherever one with some of its fields is expected. -/
theorem Assignable.of_subset {fields others : List (Field Ty)}
    (hnodup : (others.map Field.name).Nodup) (hsub : fields ⊆ others)
    (hrefl : ∀ field ∈ fields, Assignable w field.ty field.ty) (m n : Option String) :
    Assignable w (.record m fields) (.record n others) := by
  -- The field that is found for the name of an expected one is that very field.
  have hsame : ∀ field ∈ fields, fieldNamed? others field.name = some field :=
    fun field hfield => (fieldNamed?_eq_some_iff hnodup).mpr ⟨hsub hfield, rfl⟩
  apply Assignable.record
  · intro field hfield hrequired
    exact ⟨field, hsame field hfield, hrequired⟩
  · intro field hfield other hother
    rw [hsame field hfield] at hother
    obtain rfl := Option.some.inj hother
    exact hrefl field hfield

/-- A well-formed type is accepted where it is expected. -/
theorem Assignable.refl {t : Ty} (h : t.WellFormed) : Assignable w t t := by
  induction h with
  | scalar kind => exact .scalar (w.permits_self kind)
  | record hnodup _ ih => exact .of_subset hnodup (List.Subset.refl _) ih _ _
  | callable _ _ _ ihParams ihReturns =>
    exact .callable rfl (fun i hi _ => ihParams _ (List.getElem_mem hi)) ihReturns

/-! ## The types that declarations give -/

section Declarations

variable {types : String → Ty → Prop} (htypes : ∀ name ty, types name ty → ty.WellFormed)

include htypes

/-- The parameters of a callable form are named by their positions, so no two have one name. -/
theorem TyForm.Denotes.wellFormed {form : TyForm} {ty : Ty} (h : form.Denotes types ty) :
    ty.WellFormed := by
  induction h with
  | keyword _ => exact .scalar _
  | record _ htype => exact htypes _ _ htype
  | @callable forms returns span params result hlength hnames _ _ ihParams ihReturns =>
    refine .callable ?_ (fun param hparam => ?_) ihReturns
    · exact nodup_of_numbered fun i hi => by rw [List.getElem_map, hnames]
    · obtain ⟨i, hi, rfl⟩ := List.getElem_of_mem hparam
      exact ihParams i (hlength ▸ hi) hi

/-- Each field of a record is one of a base or is declared by the record itself. -/
theorem RecordDecl.HasFields.wellFormed {decl : RecordDecl} {fields : List (Field Ty)}
    (h : decl.HasFields types fields) : ∀ field ∈ fields, field.ty.WellFormed := by
  obtain ⟨inherited, own, rfl, hbases, hown⟩ := h
  intro field hfield
  rcases List.mem_append.mp hfield with hfield | hfield
  · obtain ⟨fs, hfs, hfield⟩ := List.mem_flatten.mp hfield
    obtain ⟨base, _, name, hty⟩ := exists_of_forall₂ hbases.flip hfs
    cases htypes _ _ hty with
    | record _ hfields => exact hfields field hfield
  · obtain ⟨declared, _, hdeclares⟩ := exists_of_forall₂ hown.flip hfield
    exact hdeclares.denotes.wellFormed htypes

end Declarations

theorem RecordType.wellFormed {records : List RecordDecl} {name : String} {ty : Ty}
    (h : RecordType records name ty) : ty.WellFormed := by
  induction h with
  | intro types _ _ hfields hnodup ih => exact .record hnodup (hfields.wellFormed ih)

/-- Every type that a module registers is well formed. -/
theorem Module.wellFormed_of_registers {m : Module} {name : String} {ty : Ty}
    (h : m.globals.scope.Registers name ty) : ty.WellFormed :=
  (registers_iff.mp h).wellFormed

end Conform
