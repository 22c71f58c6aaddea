import Conform.Proofs.Assignable

/-!
# Acceptance through a type between

Acceptance of types does not compose by itself. A record with an optional field accepts a record
without it, which in turn accepts a record that has the name with any type at all; nothing that was
checked on the way compared the two. **Where every field is required it does compose**
(`Ty.mismatch?_trans`), given that the table of widening rules, which does not chain rules either,
is closed under chaining.

What the middle type declares is of no matter: a field that the expected record requires is
required all the way down. So the condition is asked of the two outer types alone, and of both of
them, since the parameters of a callable make them change places.
-/

namespace Conform

variable {w : Widening}

/-- What the table admits in two steps it admits in one. -/
def Widening.Transitive (w : Widening) : Prop :=
  ∀ first second third, w.permits first second = true → w.permits second third = true →
    w.permits first third = true

/-- Every field of every record in a type is required. -/
inductive Ty.AllRequired : Ty → Prop
  | scalar (kind : Scalar) : AllRequired (.scalar kind)
  | record {name : Option String} {fields : List (Field Ty)}
      (hrequired : ∀ field ∈ fields, field.required = true)
      (hfields : ∀ field ∈ fields, field.ty.AllRequired) : AllRequired (.record name fields)
  | callable {params : List (Param Ty)} {returns : Ty}
      (hparams : ∀ param ∈ params, param.ty.AllRequired) (hreturns : returns.AllRequired) :
      AllRequired (.callable params returns)

theorem Ty.allRequired_record_iff {name : Option String} {fields : List (Field Ty)} :
    (Ty.record name fields).AllRequired ↔
      (∀ field ∈ fields, field.required = true) ∧ ∀ field ∈ fields, field.ty.AllRequired := by
  constructor
  · intro h
    cases h with
    | record hrequired hfields => exact ⟨hrequired, hfields⟩
  · intro h
    exact .record h.1 h.2

theorem Ty.allRequired_callable_iff {params : List (Param Ty)} {returns : Ty} :
    (Ty.callable params returns).AllRequired ↔
      (∀ param ∈ params, param.ty.AllRequired) ∧ returns.AllRequired := by
  constructor
  · intro h
    cases h with
    | callable hparams hreturns => exact ⟨hparams, hreturns⟩
  · intro h
    exact .callable h.1 h.2

/-! ## Records and callables -/

/-- Records compose if the expected fields are required and the fields that all three have
compose. The middle record then has every expected field, so no name of the actual one goes
unseen. -/
theorem Assignable.trans_record {m n k : Option String}
    {expected middle actual : List (Field Ty)}
    (hall : ∀ field ∈ expected, field.required = true)
    (hcompose : ∀ field ∈ expected, ∀ between ∈ middle, ∀ last ∈ actual,
      Assignable w field.ty between.ty → Assignable w between.ty last.ty →
        Assignable w field.ty last.ty)
    (h : Assignable w (.record m expected) (.record n middle))
    (h' : Assignable w (.record n middle) (.record k actual)) :
    Assignable w (.record m expected) (.record k actual) := by
  cases h with
  | record hrequired hshared =>
    cases h' with
    | record hrequired' hshared' =>
      apply Assignable.record
      · intro field hfield hreq
        obtain ⟨between, hbetween, hreq'⟩ := hrequired field hfield hreq
        rw [← fieldNamed?_name hbetween]
        exact hrequired' between (fieldNamed?_mem hbetween) hreq'
      · intro field hfield last hlast
        obtain ⟨between, hbetween, _⟩ := hrequired field hfield (hall field hfield)
        have hmem := fieldNamed?_mem hbetween
        apply hcompose field hfield between hmem last (fieldNamed?_mem hlast)
        · exact hshared field hfield between hbetween
        · rw [← fieldNamed?_name hbetween] at hlast
          exact hshared' between hmem last hlast

/-- Callables compose if their return types do and their parameters do in the other order. -/
theorem Assignable.trans_callable {expected middle actual : List (Param Ty)}
    {returns returns' returns'' : Ty}
    (hparams : ∀ param ∈ expected, ∀ between ∈ middle, ∀ last ∈ actual,
      Assignable w last.ty between.ty → Assignable w between.ty param.ty →
        Assignable w last.ty param.ty)
    (hreturns : Assignable w returns returns' → Assignable w returns' returns'' →
      Assignable w returns returns'')
    (h : Assignable w (.callable expected returns) (.callable middle returns'))
    (h' : Assignable w (.callable middle returns') (.callable actual returns'')) :
    Assignable w (.callable expected returns) (.callable actual returns'') := by
  cases h with
  | callable harity hall hresult =>
    cases h' with
    | callable harity' hall' hresult' =>
      apply Assignable.callable (harity.trans harity')
      · intro i hi hi'
        have hbetween : i < middle.length := harity ▸ hi
        exact hparams _ (List.getElem_mem hi) _ (List.getElem_mem hbetween) _
          (List.getElem_mem hi') (hall' i hbetween hi') (hall i hi hbetween)
      · exact hreturns hresult hresult'

/-! ## All types -/

/-- A type that is accepted for one that is accepted for an expected type is accepted for it. -/
theorem Assignable.trans (hw : w.Transitive) {expected middle actual : Ty}
    (hexpected : expected.AllRequired) (hactual : actual.AllRequired)
    (h : Assignable w expected middle) (h' : Assignable w middle actual) :
    Assignable w expected actual := by
  -- By the structure of the middle type. For its parameters the outer types change places, which
  -- the statement allows since it asks the same of both.
  induction middle using Ty.induct generalizing expected actual with
  | scalar kind =>
    cases h with
    | scalar hpermits =>
      cases h' with
      | scalar hpermits' => exact .scalar (hw _ _ _ hpermits' hpermits)
  | record name fields ih =>
    cases hexpected with
    | scalar _ => cases h
    | record hall hfields =>
      cases hactual with
      | scalar _ => cases h'
      | record _ hfields' =>
        apply h.trans_record hall _ h'
        intro field hfield between hbetween last hlast
        exact ih between hbetween (hfields field hfield) (hfields' last hlast)
      | callable _ _ => cases h'
    | callable _ _ => cases h
  | callable params returns ihParams ihReturns =>
    cases hexpected with
    | scalar _ => cases h
    | record _ _ => cases h
    | callable hall hresult =>
      cases hactual with
      | scalar _ => cases h'
      | record _ _ => cases h'
      | callable hall' hresult' =>
        apply h.trans_callable _ (ihReturns hresult hresult') h'
        intro param hparam between hbetween last hlast
        exact ihParams between hbetween (hall' last hlast) (hall param hparam)

/-- Where every field is required, acceptance of types composes. -/
theorem Ty.mismatch?_trans (hw : w.Transitive) {expected middle actual : Ty}
    (hexpected : expected.AllRequired) (hactual : actual.AllRequired)
    (h : expected.mismatch? w middle = none) (h' : middle.mismatch? w actual = none) :
    expected.mismatch? w actual = none := by
  rw [mismatch?_eq_none_iff] at h h' ⊢
  exact h.trans hw hexpected hactual h'

/-- A table under which a `bool` may stand for an `int`, an `int` for a `float` and so a `bool` for
a `float`. -/
def numeric : Widening :=
  .ofList [(.bool, .int), (.int, .float), (.bool, .float)]

theorem transitive_numeric : numeric.Transitive := by
  intro first second third
  cases first <;> cases second <;> cases third <;> decide

/-- A callable of a record with a field `a` of the given kind, that gives a record with a field `x`
of the given kind and other fields. -/
def converter (a x : Scalar) (others : List String) : Ty :=
  .callable [⟨"from", .record none [⟨"a", .scalar a, true⟩]⟩]
    (.record none (others.map (⟨·, .scalar .str, true⟩) ++ [⟨"x", .scalar x, true⟩]))

theorem allRequired_converter (a x : Scalar) (others : List String) :
    (converter a x others).AllRequired := by
  refine .callable ?_ (.record ?_ ?_)
  · rw [List.forall_mem_singleton]
    exact .record (by simp) (by simpa using .scalar a)
  · rw [List.forall_mem_append, List.forall_mem_map, List.forall_mem_singleton]
    exact ⟨fun _ _ => rfl, rfl⟩
  · rw [List.forall_mem_append, List.forall_mem_map, List.forall_mem_singleton]
    exact ⟨fun _ _ => .scalar .str, .scalar x⟩

/-- The kinds widen the other way round in the parameter, and fields are lost on the way. -/
theorem mismatch?_trans_converter :
    (converter .bool .float []).mismatch? numeric (converter .int .int ["y"]) = none ∧
      (converter .int .int ["y"]).mismatch? numeric (converter .float .bool ["z", "y"]) = none ∧
      (converter .bool .float []).mismatch? numeric (converter .float .bool ["z", "y"]) =
        none := by
  have h : (converter .bool .float []).mismatch? numeric (converter .int .int ["y"]) = none := by
    decide +kernel
  have h' : (converter .int .int ["y"]).mismatch? numeric
      (converter .float .bool ["z", "y"]) = none := by
    decide +kernel
  exact ⟨h, h', Ty.mismatch?_trans transitive_numeric (allRequired_converter _ _ _)
    (allRequired_converter _ _ _) h h'⟩

-- With a field that may be missing it fails: the record between does not have it at all.
example :
    (Ty.record none [⟨"a", .scalar .int, false⟩]).mismatch? .empty (.record none []) = none ∧
      (Ty.record none []).mismatch? .empty (.record none [⟨"a", .scalar .str, true⟩]) = none ∧
      (Ty.record none [⟨"a", .scalar .int, false⟩]).mismatch? .empty
        (.record none [⟨"a", .scalar .str, true⟩]) ≠ none := by
  decide +kernel

end Conform
