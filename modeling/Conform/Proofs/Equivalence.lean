import Conform.Proofs.Transitivity
import Conform.Proofs.WellFormed

/-!
# Types of one structure

Two types are equivalent if they differ in nothing but the names of records and parameters and the
order of fields. Whether a type is accepted does not depend on any of that: **equivalent types may
stand for each other, on either side** (`Assignable.congr`), and since a well-formed type is
accepted for itself, equivalent types are accepted for each other.

The converse takes two conditions. An optional field may be missing in both directions, so types
that accept each other need not have the same fields; and a table with rules both ways does not tell
two kinds apart. **Where every field is required and no two kinds widen to each other, types that
accept each other are equivalent** (`Ty.accepted_mutually`). Each direction alone says that one
side has the names of the other; it takes both to pair the fields, and then uniqueness of names
makes the field that either search finds the same one.
-/

namespace Conform

variable {w : Widening}

/-- Two types differ at most in the names of records and parameters and in the order of fields. -/
inductive Ty.Equivalent : Ty → Ty → Prop
  | scalar (kind : Scalar) : Equivalent (.scalar kind) (.scalar kind)
  | record {m n : Option String} {fields others : List (Field Ty)}
      (hothers : ∀ field ∈ fields, ∃ other ∈ others, other.name = field.name)
      (hfields : ∀ other ∈ others, ∃ field ∈ fields, field.name = other.name)
      (hrequired : ∀ field ∈ fields, ∀ other ∈ others, field.name = other.name →
        field.required = other.required)
      (hshared : ∀ field ∈ fields, ∀ other ∈ others, field.name = other.name →
        Equivalent field.ty other.ty) :
      Equivalent (.record m fields) (.record n others)
  | callable {params others : List (Param Ty)} {returns returns' : Ty}
      (harity : params.length = others.length)
      (hparams : ∀ i (h : i < params.length) (h' : i < others.length),
        Equivalent params[i].ty others[i].ty)
      (hreturns : Equivalent returns returns') :
      Equivalent (.callable params returns) (.callable others returns')

/-- No two kinds widen to each other. -/
def Widening.Antisymmetric (w : Widening) : Prop :=
  ∀ first second, w.permits first second = true → w.permits second first = true → first = second

namespace Ty.Equivalent

theorem symm {t u : Ty} (h : t.Equivalent u) : u.Equivalent t := by
  induction h with
  | scalar kind => exact .scalar kind
  | record hothers hfields hrequired _ ih =>
    apply record hfields hothers
    · intro other hother field hfield hname
      exact (hrequired field hfield other hother hname.symm).symm
    · intro other hother field hfield hname
      exact ih field hfield other hother hname.symm
  | callable harity _ _ ihParams ihReturns =>
    exact .callable harity.symm (fun i hi hi' => ihParams i hi' hi) ihReturns

/-- The order of its fields is of no matter to a record, and neither is its name. -/
theorem of_perm {fields others : List (Field Ty)} (hnodup : (fields.map Field.name).Nodup)
    (hperm : fields.Perm others)
    (hrefl : ∀ field ∈ fields, field.ty.Equivalent field.ty) (m n : Option String) :
    (Ty.record m fields).Equivalent (.record n others) := by
  -- No two fields have one name, so fields of the same name on both sides are the same field.
  have hsame : ∀ field ∈ fields, ∀ other ∈ others, field.name = other.name → field = other :=
    fun field hfield other hother hname =>
      List.inj_on_of_nodup_map hnodup hfield (hperm.mem_iff.mpr hother) hname
  apply record
  · intro field hfield
    exact ⟨field, hperm.mem_iff.mp hfield, rfl⟩
  · intro other hother
    exact ⟨other, hperm.mem_iff.mpr hother, rfl⟩
  · intro field hfield other hother hname
    rw [hsame field hfield other hother hname]
  · intro field hfield other hother hname
    rw [← hsame field hfield other hother hname]
    exact hrefl field hfield

theorem refl {t : Ty} (h : t.WellFormed) : t.Equivalent t := by
  induction h with
  | scalar kind => exact .scalar kind
  | record hnodup _ ih => exact of_perm hnodup (.refl _) ih _ _
  | callable _ _ _ ihParams ihReturns =>
    exact .callable rfl (fun i hi _ => ihParams _ (List.getElem_mem hi)) ihReturns

theorem exists_record {m : Option String} {fields : List (Field Ty)} {t : Ty}
    (h : (Ty.record m fields).Equivalent t) : ∃ n others, t = .record n others := by
  cases h with
  | record => exact ⟨_, _, rfl⟩

/-- A field of a record is found in an equivalent one, with the same marker and of an equivalent
type. -/
theorem exists_field {m n : Option String} {fields others : List (Field Ty)}
    (h : (Ty.record m fields).Equivalent (.record n others)) {field : Field Ty}
    (hfield : field ∈ fields) :
    ∃ other, fieldNamed? others field.name = some other ∧ field.required = other.required ∧
      field.ty.Equivalent other.ty := by
  cases h with
  | record hothers _ hrequired hshared =>
    have hsome := isSome_fieldNamed?_iff.mpr (hothers field hfield)
    obtain ⟨other, hfound⟩ := Option.isSome_iff_exists.mp hsome
    have hother := fieldNamed?_mem hfound
    have hname := (fieldNamed?_name hfound).symm
    exact ⟨other, hfound, hrequired field hfield other hother hname,
      hshared field hfield other hother hname⟩

end Ty.Equivalent

/-! ## Acceptance of equivalent types -/

/-- Equivalent types may stand for the expected type and for the accepted one. -/
theorem Assignable.congr {expected expected' actual actual' : Ty}
    (hexpected : expected.Equivalent expected') (hactual : actual.Equivalent actual')
    (h : Assignable w expected actual) : Assignable w expected' actual' := by
  induction h generalizing expected' actual' with
  | scalar hpermits =>
    cases hexpected
    cases hactual
    exact .scalar hpermits
  | record hrequired _ ih =>
    obtain ⟨_, _, rfl⟩ := hexpected.exists_record
    obtain ⟨_, _, rfl⟩ := hactual.exists_record
    -- Each field of the new expected record stands for one of the old one, with the same name.
    apply Assignable.record
    · intro field' hfield' hreq'
      obtain ⟨field, hfound, hmarker, _⟩ := hexpected.symm.exists_field hfield'
      obtain ⟨other, hother, hreq⟩ := hrequired field (fieldNamed?_mem hfound) (hmarker ▸ hreq')
      obtain ⟨other', hother', hmarker', _⟩ := hactual.exists_field (fieldNamed?_mem hother)
      rw [fieldNamed?_name hother, fieldNamed?_name hfound] at hother'
      exact ⟨other', hother', hmarker' ▸ hreq⟩
    · intro field' hfield' other' hother'
      obtain ⟨field, hfound, _, hty⟩ := hexpected.symm.exists_field hfield'
      obtain ⟨other, hother, _, hty'⟩ := hactual.symm.exists_field (fieldNamed?_mem hother')
      rw [fieldNamed?_name hother', ← fieldNamed?_name hfound] at hother
      exact ih field (fieldNamed?_mem hfound) other hother hty.symm hty'.symm
  | callable harity _ _ ihParams ihReturns =>
    cases hexpected with
    | callable hlength hparams hreturns =>
      cases hactual with
      | callable hlength' hparams' hreturns' =>
        apply Assignable.callable
        · rw [← hlength, ← hlength', harity]
        · intro i hi hi'
          have hold : i < _ := hlength ▸ hi
          have hold' : i < _ := hlength' ▸ hi'
          exact ihParams i hold hold' (hparams' i hold' hi') (hparams i hold hi)
        · exact ihReturns hreturns hreturns'

/-! ## Types that are accepted for each other -/

/-- Types that are accepted for each other are equivalent, if neither an optional field nor a pair
of rules makes up for a difference. -/
theorem Ty.equivalent_of_mutual (hw : w.Antisymmetric) {t u : Ty} (ht : t.WellFormed)
    (hu : u.WellFormed) (htall : t.AllRequired) (huall : u.AllRequired)
    (h : Assignable w t u) (h' : Assignable w u t) : t.Equivalent u := by
  -- By the derivation of one direction; the other one is inverted as it goes along. Parameters
  -- exchange the two, which leaves both at hand.
  induction h with
  | scalar hpermits =>
    cases h' with
    | scalar hpermits' =>
      obtain rfl := hw _ _ hpermits' hpermits
      exact .scalar _
  | record hrequired _ ih =>
    obtain ⟨hnodup, hwf⟩ := wellFormed_record_iff.mp ht
    obtain ⟨hnodup', hwf'⟩ := wellFormed_record_iff.mp hu
    obtain ⟨hreq, hall⟩ := allRequired_record_iff.mp htall
    obtain ⟨hreq', hall'⟩ := allRequired_record_iff.mp huall
    cases h' with
    | record hrequired' hshared' =>
      apply Equivalent.record
      · intro field hfield
        obtain ⟨other, hfound, _⟩ := hrequired field hfield (hreq field hfield)
        exact ⟨other, fieldNamed?_mem hfound, fieldNamed?_name hfound⟩
      · intro other hother
        obtain ⟨field, hfound, _⟩ := hrequired' other hother (hreq' other hother)
        exact ⟨field, fieldNamed?_mem hfound, fieldNamed?_name hfound⟩
      · intro field hfield other hother _
        rw [hreq field hfield, hreq' other hother]
      · intro field hfield other hother hname
        have hfound := (fieldNamed?_eq_some_iff hnodup').mpr ⟨hother, hname.symm⟩
        have hfound' := (fieldNamed?_eq_some_iff hnodup).mpr ⟨hfield, hname⟩
        exact ih field hfield other hfound (hwf field hfield) (hwf' other hother)
          (hall field hfield) (hall' other hother) (hshared' other hother field hfound')
  | callable harity _ _ ihParams ihReturns =>
    obtain ⟨_, hwf, hwfReturns⟩ := wellFormed_callable_iff.mp ht
    obtain ⟨_, hwf', hwfReturns'⟩ := wellFormed_callable_iff.mp hu
    obtain ⟨hall, hallReturns⟩ := allRequired_callable_iff.mp htall
    obtain ⟨hall', hallReturns'⟩ := allRequired_callable_iff.mp huall
    cases h' with
    | callable _ hparams' hreturns' =>
      apply Equivalent.callable harity
      · intro i hi hi'
        have hmem := List.getElem_mem hi
        have hmem' := List.getElem_mem hi'
        have hequivalent := ihParams i hi hi' (hwf' _ hmem') (hwf _ hmem) (hall' _ hmem')
          (hall _ hmem) (hparams' i hi' hi)
        exact hequivalent.symm
      · exact ihReturns hwfReturns hwfReturns' hallReturns hallReturns' hreturns'

/-- Well-formed types are accepted for each other if they are equivalent, each of them for itself in
particular. Where every field is required and no two kinds widen to each other, only equivalent
types are. -/
theorem Ty.accepted_mutually {t u : Ty} (ht : t.WellFormed) (hu : u.WellFormed) :
    (t.Equivalent u → ∀ w, t.mismatch? w u = none ∧ u.mismatch? w t = none) ∧
    (∀ w, t.mismatch? w t = none) ∧
    (t.AllRequired → u.AllRequired → ∀ w : Widening, w.Antisymmetric →
      t.mismatch? w u = none → u.mismatch? w t = none → t.Equivalent u) := by
  simp only [mismatch?_eq_none_iff]
  refine ⟨fun h w => ⟨?_, ?_⟩, fun w => .refl ht, fun htall huall w hw h h' => ?_⟩
  · exact (Assignable.refl ht).congr (.refl ht) h
  · exact (Assignable.refl ht).congr h (.refl ht)
  · exact equivalent_of_mutual hw ht hu htall huall h h'

theorem antisymmetric_numeric : numeric.Antisymmetric := by
  intro first second
  cases first <;> cases second <;> decide

/-- A record whose fields all have one type. -/
def uniform (name : Option String) (ty : Ty) (fields : List String) : Ty :=
  .record name (fields.map (⟨·, ty, true⟩))

theorem wellFormed_uniform {name : Option String} {ty : Ty} {fields : List String}
    (hnodup : fields.Nodup) (hty : ty.WellFormed) : (uniform name ty fields).WellFormed := by
  refine .record ?_ ?_
  · simpa [Function.comp_def] using hnodup
  · rw [List.forall_mem_map]
    exact fun _ _ => hty

theorem allRequired_uniform {name : Option String} {ty : Ty} {fields : List String}
    (hty : ty.AllRequired) : (uniform name ty fields).AllRequired := by
  refine .record ?_ ?_
  · rw [List.forall_mem_map]
    exact fun _ _ => rfl
  · rw [List.forall_mem_map]
    exact fun _ _ => hty

theorem equivalent_uniform {ty : Ty} (hty : ty.Equivalent ty) {fields others : List String}
    (hnodup : fields.Nodup) (hperm : fields.Perm others) (m n : Option String) :
    (uniform m ty fields).Equivalent (uniform n ty others) := by
  refine .of_perm ?_ (hperm.map _) ?_ m n
  · simpa [Function.comp_def] using hnodup
  · rw [List.forall_mem_map]
    exact fun _ _ => hty

/-- What gives the length of a point. -/
def lengthOfPoint : Ty :=
  .callable [⟨"p", uniform (some "Point") (.scalar .float) ["x", "y"]⟩] (.scalar .float)

/-- The same, by other names and with the coordinates in another order. -/
def lengthOfPair : Ty :=
  .callable [⟨"pair", uniform none (.scalar .float) ["y", "x"]⟩] (.scalar .float)

/-- Each of the two is accepted for the other where integers are floats, and from that alone it
follows that they are accepted under any rules. -/
theorem accepted_mutually_lengths :
    lengthOfPoint.WellFormed ∧ lengthOfPair.WellFormed ∧
      lengthOfPoint.mismatch? numeric lengthOfPair = none ∧
      lengthOfPair.mismatch? numeric lengthOfPoint = none ∧
      lengthOfPoint.Equivalent lengthOfPair ∧
      ∀ w, lengthOfPoint.mismatch? w lengthOfPair = none := by
  have ht : lengthOfPoint.WellFormed := by
    refine .callable (by decide) ?_ (.scalar _)
    exact List.forall_mem_singleton.mpr (wellFormed_uniform (by decide) (.scalar _))
  have hu : lengthOfPair.WellFormed := by
    refine .callable (by decide) ?_ (.scalar _)
    exact List.forall_mem_singleton.mpr (wellFormed_uniform (by decide) (.scalar _))
  have htall : lengthOfPoint.AllRequired :=
    .callable (List.forall_mem_singleton.mpr (allRequired_uniform (.scalar _))) (.scalar _)
  have huall : lengthOfPair.AllRequired :=
    .callable (List.forall_mem_singleton.mpr (allRequired_uniform (.scalar _))) (.scalar _)
  have h : lengthOfPoint.mismatch? numeric lengthOfPair = none := by decide +kernel
  have h' : lengthOfPair.mismatch? numeric lengthOfPoint = none := by decide +kernel
  obtain ⟨haccepted, _, hconverse⟩ := Ty.accepted_mutually ht hu
  have hequivalent := hconverse htall huall numeric antisymmetric_numeric h h'
  exact ⟨ht, hu, h, h', hequivalent, fun w => (haccepted hequivalent w).1⟩

-- A field that may be missing need not be declared by the other record at all.
example :
    (Ty.record none [⟨"a", .scalar .int, false⟩]).mismatch? .empty (.record none []) = none ∧
      (Ty.record none []).mismatch? .empty (.record none [⟨"a", .scalar .int, false⟩]) = none := by
  decide +kernel

end Conform
