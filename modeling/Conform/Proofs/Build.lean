import Conform.TyForm
import Mathlib.Data.List.Nodup

/-!
# Which parts make a type

`Ty.record?` and `Signature.make?` refuse parts whose names repeat and nothing else, and say which
name is the first to do so. Stated as equivalences, one for each answer, so that no later proof
looks for a repeated name by hand.

**The positional names never repeat** (`nodup_positional`): `arg0`, `arg1`, … are different because
decimal notation is injective, for parameter lists of every length. A callable form whose parts have
types therefore has one itself (`callable?_positional`), and the failure that `Ty.callable?` could
report there has no input.
-/

namespace Conform

attribute [ext] Field Param

/-! ## Repeated names -/

theorem firstRepeat?_eq_none_iff {seen names : List String} :
    firstRepeat? seen names = none ↔ names.Nodup ∧ ∀ name ∈ names, name ∉ seen := by
  induction names generalizing seen with
  | nil => simp [firstRepeat?]
  | cons name rest ih =>
    rw [firstRepeat?, List.nodup_cons]
    by_cases hseen : name ∈ seen
    · simp [hseen]
    · rw [if_neg hseen, ih]
      constructor
      · rintro ⟨hnodup, hfresh⟩
        refine ⟨⟨fun hmem => ?_, hnodup⟩, fun other hother => ?_⟩
        · exact hfresh name hmem List.mem_cons_self
        · rcases List.mem_cons.mp hother with rfl | hother
          · exact hseen
          · exact fun h => hfresh other hother (List.mem_cons_of_mem _ h)
      · rintro ⟨⟨hnot, hnodup⟩, hfresh⟩
        refine ⟨hnodup, fun other hother hmem => ?_⟩
        rcases List.mem_cons.mp hmem with rfl | hmem
        · exact hnot hother
        · exact hfresh other (List.mem_cons_of_mem _ hother) hmem

/-- Of the names that repeat an earlier one, the first. -/
def FirstRepeat (names : List String) (name : String) : Prop :=
  ∃ before after, names = before ++ name :: after ∧ before.Nodup ∧ name ∈ before

theorem firstRepeat?_eq_some_iff {seen names : List String} {name : String} :
    firstRepeat? seen names = some name ↔ ∃ before after, names = before ++ name :: after ∧
      before.Nodup ∧ (∀ other ∈ before, other ∉ seen) ∧ (name ∈ before ∨ name ∈ seen) := by
  induction names generalizing seen with
  | nil => simp [firstRepeat?]
  | cons head rest ih =>
    rw [firstRepeat?]
    by_cases hseen : head ∈ seen
    · rw [if_pos hseen]
      constructor
      · intro h
        obtain rfl := Option.some.inj h
        exact ⟨[], rest, rfl, .nil, fun _ hother => absurd hother List.not_mem_nil, Or.inr hseen⟩
      · intro h
        obtain ⟨before, after, hsplit, _, hfresh, _⟩ := h
        cases before with
        | nil => rw [(List.cons.inj hsplit).1]
        | cons first before =>
          obtain ⟨rfl, _⟩ := List.cons.inj hsplit
          exact absurd hseen (hfresh _ List.mem_cons_self)
    · rw [if_neg hseen, ih]
      constructor
      · intro h
        obtain ⟨before, after, rfl, hnodup, hfresh, hname⟩ := h
        refine ⟨head :: before, after, rfl, List.nodup_cons.mpr ⟨fun hmem => ?_, hnodup⟩,
          fun other hother => ?_, ?_⟩
        · exact hfresh head hmem List.mem_cons_self
        · rcases List.mem_cons.mp hother with rfl | hother
          · exact hseen
          · exact fun h => hfresh other hother (List.mem_cons_of_mem _ h)
        · rcases hname with hname | hname
          · exact Or.inl (List.mem_cons_of_mem _ hname)
          · rcases List.mem_cons.mp hname with rfl | hname
            · exact Or.inl List.mem_cons_self
            · exact Or.inr hname
      · intro h
        obtain ⟨before, after, hsplit, hnodup, hfresh, hname⟩ := h
        cases before with
        | nil =>
          obtain ⟨rfl, _⟩ := List.cons.inj hsplit
          exact absurd (hname.resolve_left List.not_mem_nil) hseen
        | cons first before =>
          obtain ⟨rfl, hrest⟩ := List.cons.inj hsplit
          obtain ⟨hnot, hnodup⟩ := List.nodup_cons.mp hnodup
          refine ⟨before, after, hrest, hnodup, fun other hother hmem => ?_, ?_⟩
          · rcases List.mem_cons.mp hmem with rfl | hmem
            · exact hnot hother
            · exact hfresh other (List.mem_cons_of_mem _ hother) hmem
          · rcases hname with hname | hname
            · exact (List.mem_cons.mp hname).elim (fun h => Or.inr (h ▸ List.mem_cons_self)) Or.inl
            · exact Or.inr (List.mem_cons_of_mem _ hname)

theorem firstRepeat?_nil_eq_some_iff {names : List String} {name : String} :
    firstRepeat? [] names = some name ↔ FirstRepeat names name := by
  rw [firstRepeat?_eq_some_iff]
  simp [FirstRepeat]

/-! ## Records and signatures -/

theorem Ty.record?_eq_ok_iff {name : Option String} {fields : List (Field Ty)} {ty : Ty} :
    Ty.record? name fields = .ok ty ↔
      (fields.map Field.name).Nodup ∧ ty = .record name fields := by
  unfold Ty.record?
  cases h : firstRepeat? [] (fields.map Field.name) with
  | none =>
    have hnodup := (firstRepeat?_eq_none_iff.mp h).1
    simp only [Except.ok.injEq, hnodup, true_and]
    exact eq_comm
  | some field =>
    have hrepeat : ¬ (fields.map Field.name).Nodup := by
      intro hnodup
      have := firstRepeat?_eq_none_iff.mpr ⟨hnodup, fun name _ => List.not_mem_nil⟩
      rw [h] at this
      exact absurd this (by simp)
    simp [hrepeat]

theorem Signature.make?_eq_ok_iff {params : List (Param Ty)} {returns : Ty} {sig : Signature} :
    Signature.make? params returns = .ok sig ↔
      (params.map Param.name).Nodup ∧ sig = ⟨params, returns⟩ := by
  unfold Signature.make?
  cases h : firstRepeat? [] (params.map Param.name) with
  | none =>
    have hnodup := (firstRepeat?_eq_none_iff.mp h).1
    simp only [Except.ok.injEq, hnodup, true_and]
    exact eq_comm
  | some param =>
    have hrepeat : ¬ (params.map Param.name).Nodup := by
      intro hnodup
      have := firstRepeat?_eq_none_iff.mpr ⟨hnodup, fun name _ => List.not_mem_nil⟩
      rw [h] at this
      exact absurd this (by simp)
    simp [hrepeat]

/-- A record that is refused is refused for its first repeated field. -/
theorem Ty.record?_eq_error_iff {name : Option String} {fields : List (Field Ty)}
    {cause : Malformed} :
    Ty.record? name fields = .error cause ↔ ∃ field, FirstRepeat (fields.map Field.name) field ∧
      cause = .duplicateField (name.getD "<anonymous>") field := by
  unfold Ty.record?
  simp only [← firstRepeat?_nil_eq_some_iff]
  cases firstRepeat? [] (fields.map Field.name) <;> simp [eq_comm]

theorem Signature.make?_eq_error_iff {params : List (Param Ty)} {returns : Ty}
    {cause : Malformed} :
    Signature.make? params returns = .error cause ↔
      ∃ param, FirstRepeat (params.map Param.name) param ∧ cause = .duplicateParam param := by
  unfold Signature.make?
  simp only [← firstRepeat?_nil_eq_some_iff]
  cases firstRepeat? [] (params.map Param.name) <;> simp [eq_comm]

/-! ## Positional parameters -/

theorem eq_of_repr_eq {m n : Nat} (h : Nat.repr m = Nat.repr n) : m = n := by
  have hdigits : Nat.toDigits 10 m = Nat.toDigits 10 n := by
    rw [← Nat.toList_repr, ← Nat.toList_repr, h]
  have := congrArg (Nat.ofDigitChars 10 · 0) hdigits
  simpa only [Nat.ofDigitChars_ten_toDigits] using this

/-- Names that say where they stand are pairwise different. -/
theorem nodup_of_numbered {names : List String}
    (h : ∀ i (hi : i < names.length), names[i] = "arg" ++ Nat.repr i) : names.Nodup := by
  rw [List.nodup_iff_injective_get]
  intro ⟨i, hi⟩ ⟨j, hj⟩ hij
  rw [List.get_eq_getElem, List.get_eq_getElem, h i hi, h j hj] at hij
  exact Fin.ext (eq_of_repr_eq ((String.append_right_inj "arg").mp hij))

theorem nodup_positional (types : List Ty) : ((positional types).map Param.name).Nodup :=
  nodup_of_numbered fun i hi => by simp [positional]

/-- A callable form whose parts have types has one. -/
theorem callable?_positional (types : List Ty) (returns : Ty) :
    Ty.callable? (positional types) returns = .ok (.callable (positional types) returns) := by
  have hmake : Signature.make? (positional types) returns = .ok ⟨positional types, returns⟩ :=
    Signature.make?_eq_ok_iff.mpr ⟨nodup_positional types, rfl⟩
  rw [Ty.callable?, hmake]
  rfl

end Conform
