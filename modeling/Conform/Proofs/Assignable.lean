import Conform.Ty.Assignable
import Mathlib.Data.List.Forall2

/-!
# Which types are accepted

`Ty.mismatch?` looks for the first reason against a type. `Assignable` is the same relation without
a search and without reasons: one rule for scalars, one for records, one for callables, and no rule
between different forms.

**The search finds nothing exactly if the rules apply** (`mismatch?_eq_none_iff`), for all types,
well-formed or not. The sides change places in the parameters of a callable, so an induction on the
expected type alone does not carry its hypothesis to where it is needed; the one for two types at
once (`Ty.induct₂`) goes down as the search does.
-/

namespace Conform

variable {w : Widening}

/-- A value of the second type may stand where the first type is expected. -/
inductive Assignable (w : Widening) : Ty → Ty → Prop
  | scalar {expected actual : Scalar} (h : w.permits actual expected = true) :
      Assignable w (.scalar expected) (.scalar actual)
  | record {m n : Option String} {expected actual : List (Field Ty)}
      (hrequired : ∀ field ∈ expected, field.required = true →
        ∃ other, fieldNamed? actual field.name = some other ∧ other.required = true)
      (hshared : ∀ field ∈ expected, ∀ other, fieldNamed? actual field.name = some other →
        Assignable w field.ty other.ty) :
      Assignable w (.record m expected) (.record n actual)
  | callable {expected actual : List (Param Ty)} {returns returns' : Ty}
      (harity : expected.length = actual.length)
      (hparams : ∀ i (h : i < expected.length) (h' : i < actual.length),
        Assignable w actual[i].ty expected[i].ty)
      (hreturns : Assignable w returns returns') :
      Assignable w (.callable expected returns) (.callable actual returns')

/-! ## The parts of the search -/

theorem fieldNamed?_name {fields : List (Field Ty)} {name : String} {field : Field Ty}
    (h : fieldNamed? fields name = some field) : field.name = name := by
  simpa using List.find?_some h

theorem Scalar.mismatch?_eq_none_iff {expected actual : Scalar} :
    expected.mismatch? w actual = Option.none ↔ w.permits actual expected = true := by
  unfold Scalar.mismatch?
  cases w.permits actual expected <;> simp

theorem Field.mismatch?_eq_none_iff {field : Field Ty} {actual : List (Field Ty)} :
    field.mismatch? w actual = none ↔
      (field.required = true →
        ∃ other, fieldNamed? actual field.name = some other ∧ other.required = true) ∧
      ∀ other, fieldNamed? actual field.name = some other →
        field.ty.mismatch? w other.ty = none := by
  unfold Field.mismatch?
  rw [Option.map_eq_none_iff]
  cases fieldNamed? actual field.name with
  | none => cases field.required <;> simp
  | some other => cases hr : field.required <;> cases ho : other.required <;> simp [ho]

/-- What holds of two lists side by side holds at each place that both have. -/
theorem forall_mem_zip_zipIdx_iff {α β : Type} (p : α → β → Prop) (as : List α) (bs : List β) :
    (∀ entry ∈ (as.zip bs).zipIdx, p entry.1.1 entry.1.2) ↔
      ∀ i (h : i < as.length) (h' : i < bs.length), p as[i] bs[i] := by
  constructor
  · intro h i hi hi'
    have hzip : i < (as.zip bs).length := by rw [List.length_zip]; omega
    have hmem : ((as[i], bs[i]), i) ∈ (as.zip bs).zipIdx := by
      rw [List.mem_zipIdx_iff_getElem?, List.getElem?_eq_getElem hzip, List.getElem_zip]
    exact h _ hmem
  · intro h entry hentry
    obtain ⟨⟨a, b⟩, index⟩ := entry
    rw [List.mem_zipIdx_iff_getElem?] at hentry
    dsimp only at hentry ⊢
    obtain ⟨hlt, heq⟩ := List.getElem?_eq_some_iff.mp hentry
    rw [List.getElem_zip] at heq
    obtain ⟨rfl, rfl⟩ := Prod.mk.inj heq
    rw [List.length_zip] at hlt
    exact h index (by omega) (by omega)

theorem Ty.mismatch?_record_eq_none_iff {m n : Option String} {expected actual : List (Field Ty)} :
    (Ty.record m expected).mismatch? w (.record n actual) = none ↔
      (∀ field ∈ expected, field.required = true →
        ∃ other, fieldNamed? actual field.name = some other ∧ other.required = true) ∧
      ∀ field ∈ expected, ∀ other, fieldNamed? actual field.name = some other →
        field.ty.mismatch? w other.ty = none := by
  rw [Ty.mismatch?_record, List.findSome?_eq_none_iff]
  simp only [Field.mismatch?_eq_none_iff, forall_and]

theorem Ty.findSome?_params_eq_none_iff {expected actual : List (Param Ty)} :
    ((expected.zip actual).zipIdx.findSome? fun ((param, other), index) =>
        (other.ty.mismatch? w param.ty).map (Mismatch.within (.argument index))) = none ↔
      ∀ i (h : i < expected.length) (h' : i < actual.length),
        actual[i].ty.mismatch? w expected[i].ty = none := by
  rw [List.findSome?_eq_none_iff, ← forall_mem_zip_zipIdx_iff
    (fun param other : Param Ty => other.ty.mismatch? w param.ty = none) expected actual]
  simp only [Option.map_eq_none_iff]

theorem Ty.mismatch?_callable_eq_none_iff {expected actual : List (Param Ty)}
    {returns returns' : Ty} :
    (Ty.callable expected returns).mismatch? w (.callable actual returns') = none ↔
      expected.length = actual.length ∧
      (∀ i (h : i < expected.length) (h' : i < actual.length),
        actual[i].ty.mismatch? w expected[i].ty = none) ∧
      returns.mismatch? w returns' = none := by
  rw [Ty.mismatch?_callable]
  by_cases harity : expected.length = actual.length
  · rw [if_pos harity, Option.or_eq_none_iff, Option.map_eq_none_iff, findSome?_params_eq_none_iff,
      and_iff_right harity]
  · simp [harity]

/-! ## The search and the rules -/

theorem assignable_scalar_iff {expected actual : Scalar} :
    (Ty.scalar expected).mismatch? w (.scalar actual) = none ↔
      Assignable w (.scalar expected) (.scalar actual) := by
  rw [Ty.mismatch?_scalar, Scalar.mismatch?_eq_none_iff]
  constructor
  · intro h
    exact .scalar h
  · intro h
    cases h with
    | scalar h => exact h

theorem assignable_record_iff {m n : Option String} {expected actual : List (Field Ty)}
    (h : ∀ field ∈ expected, ∀ other ∈ actual,
      field.ty.mismatch? w other.ty = none ↔ Assignable w field.ty other.ty) :
    (Ty.record m expected).mismatch? w (.record n actual) = none ↔
      Assignable w (.record m expected) (.record n actual) := by
  rw [Ty.mismatch?_record_eq_none_iff]
  constructor
  · intro hfields
    obtain ⟨hrequired, hshared⟩ := hfields
    exact .record hrequired fun field hfield other hother =>
      (h field hfield other (fieldNamed?_mem hother)).mp (hshared field hfield other hother)
  · intro hassignable
    cases hassignable with
    | record hrequired hshared =>
      exact ⟨hrequired, fun field hfield other hother =>
        (h field hfield other (fieldNamed?_mem hother)).mpr (hshared field hfield other hother)⟩

theorem assignable_callable_iff {expected actual : List (Param Ty)} {returns returns' : Ty}
    (hparams : ∀ param ∈ expected, ∀ other ∈ actual,
      other.ty.mismatch? w param.ty = none ↔ Assignable w other.ty param.ty)
    (hreturns : returns.mismatch? w returns' = none ↔ Assignable w returns returns') :
    (Ty.callable expected returns).mismatch? w (.callable actual returns') = none ↔
      Assignable w (.callable expected returns) (.callable actual returns') := by
  rw [Ty.mismatch?_callable_eq_none_iff, hreturns]
  constructor
  · intro h
    obtain ⟨harity, hall, hresult⟩ := h
    exact .callable harity (fun i hi hi' =>
      (hparams _ (List.getElem_mem hi) _ (List.getElem_mem hi')).mp (hall i hi hi')) hresult
  · intro h
    cases h with
    | callable harity hall hresult =>
      exact ⟨harity, fun i hi hi' =>
        (hparams _ (List.getElem_mem hi) _ (List.getElem_mem hi')).mpr (hall i hi hi'), hresult⟩

/-- Two scalars, two records or two callables. -/
def Ty.SameForm : Ty → Ty → Prop
  | .scalar _, .scalar _ => True
  | .record _ _, .record _ _ => True
  | .callable _ _, .callable _ _ => True
  | _, _ => False

theorem Ty.mismatch?_of_not_sameForm {expected actual : Ty} (h : ¬ expected.SameForm actual) :
    expected.mismatch? w actual =
      some (Reason.incompatible expected.render actual.render).atRoot := by
  cases expected <;> cases actual <;> simp_all [Ty.SameForm, Ty.mismatch?]

/-- Between different forms there is neither a rule nor an acceptance. -/
theorem assignable_iff_of_not_sameForm {expected actual : Ty} (h : ¬ expected.SameForm actual) :
    expected.mismatch? w actual = none ↔ Assignable w expected actual := by
  have hsearch : expected.mismatch? w actual ≠ none := by
    rw [Ty.mismatch?_of_not_sameForm h]
    exact Option.some_ne_none _
  have hrules : ¬ Assignable w expected actual := by
    intro hassignable
    cases hassignable <;> exact h trivial
  exact iff_of_false hsearch hrules

/-- What holds of two scalars and of types of different forms, of two records once it holds of the
types of their fields, and of two callables once it holds of the types of their parameters, with the
sides changed, and of what they return, holds of every two types. -/
@[elab_as_elim]
theorem Ty.induct₂ {motive : Ty → Ty → Prop}
    (scalar : ∀ expected actual, motive (.scalar expected) (.scalar actual))
    (record : ∀ m n expected actual,
      (∀ field ∈ expected, ∀ other ∈ actual, motive field.ty other.ty) →
        motive (.record m expected) (.record n actual))
    (callable : ∀ expected actual returns returns',
      (∀ param ∈ expected, ∀ other ∈ actual, motive other.ty param.ty) → motive returns returns' →
        motive (.callable expected returns) (.callable actual returns'))
    (form : ∀ expected actual, ¬ expected.SameForm actual → motive expected actual)
    (expected actual : Ty) : motive expected actual :=
  match expected, actual with
  | .scalar e, .scalar a => scalar e a
  | .record m es, .record n as =>
    record m n es as fun field hfield other hother =>
      have := Field.sizeOf_ty_lt hfield
      have := Field.sizeOf_ty_lt hother
      Ty.induct₂ scalar record callable form field.ty other.ty
  | .callable es r, .callable as s =>
    callable es as r s
      (fun param hparam other hother =>
        have := Param.sizeOf_ty_lt hparam
        have := Param.sizeOf_ty_lt hother
        Ty.induct₂ scalar record callable form other.ty param.ty)
      (Ty.induct₂ scalar record callable form r s)
  | .scalar _, .record .. => form _ _ id
  | .scalar _, .callable .. => form _ _ id
  | .record .., .scalar _ => form _ _ id
  | .record .., .callable .. => form _ _ id
  | .callable .., .scalar _ => form _ _ id
  | .callable .., .record .. => form _ _ id
termination_by sizeOf expected + sizeOf actual

/-- The search finds no reason against a type exactly if the rules accept it. -/
theorem mismatch?_eq_none_iff {expected actual : Ty} :
    expected.mismatch? w actual = none ↔ Assignable w expected actual := by
  induction expected, actual using Ty.induct₂ with
  | scalar expected actual => exact assignable_scalar_iff
  | record m n expected actual ih => exact assignable_record_iff ih
  | callable expected actual returns returns' ihParams ihReturns =>
    exact assignable_callable_iff ihParams ihReturns
  | form expected actual h => exact assignable_iff_of_not_sameForm h

end Conform
