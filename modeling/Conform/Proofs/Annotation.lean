import Conform.Proofs.Build
import Mathlib.Data.List.Forall2

/-!
# What annotations mention and denote

Two relations that say what `TyForm.references` and `TyForm.denote?` compute, one rule for each form
of annotation:

* `Mentions` — an identifier occurs in the annotation as the name of a type, at any depth of
  callable forms. A scalar keyword is no such name.
* `Denotes types` — the annotation denotes a type, where the names of records stand for what
  `types` relates them to. The relation is a parameter, not a table: the rules for records
  (`Proofs/Record.lean`) put their own least relation there.

The computed and the ruled form agree in both directions (`mem_references_iff`,
`denote?_eq_some_iff`). An annotation denotes a type exactly if every name that it mentions does
(`exists_denotes_iff`), and only one if no name has two.
-/

namespace Conform

/-- A table of types holds what a relation says. -/
def Knows (known : String → Option Ty) (types : String → Ty → Prop) : Prop :=
  ∀ name ty, known name = some ty ↔ types name ty

theorem Knows.eq {known : String → Option Ty} {types : String → Ty → Prop} (h : Knows known types) :
    (fun name ty => known name = some ty) = types := by
  funext name ty
  exact propext (h name ty)

namespace TyForm

/-- What holds of every name, and of a callable form once it holds of its parts, holds of every
annotation. -/
@[elab_as_elim]
theorem induct {motive : TyForm → Prop} (named : ∀ ident, motive (.named ident))
    (callable : ∀ params returns span, (∀ form ∈ params, motive form) → motive returns →
      motive (.callable params returns span)) (form : TyForm) : motive form :=
  match form with
  | .named ident => named ident
  | .callable params returns span =>
    callable params returns span
      (fun form h =>
        have := List.sizeOf_lt_of_mem h
        induct named callable form)
      (induct named callable returns)
termination_by sizeOf form

/-! ## Mentions -/

/-- An identifier stands in an annotation for a type that is not a scalar. -/
inductive Mentions : TyForm → Ident → Prop
  | named {ident : Ident} (hkeyword : Scalar.ofKeyword? ident.name = none) :
      Mentions (.named ident) ident
  | param {params : List TyForm} {returns : TyForm} {span : Span} {form : TyForm} {ident : Ident}
      (hmem : form ∈ params) (h : Mentions form ident) :
      Mentions (.callable params returns span) ident
  | returns {params : List TyForm} {returns : TyForm} {span : Span} {ident : Ident}
      (h : Mentions returns ident) : Mentions (.callable params returns span) ident

theorem referencesAll_eq_flatMap (forms : List TyForm) :
    referencesAll forms = forms.flatMap references := by
  induction forms with
  | nil => rfl
  | cons form rest ih => rw [referencesAll, ih, List.flatMap_cons]

theorem mem_references_iff {form : TyForm} {ident : Ident} :
    ident ∈ form.references ↔ form.Mentions ident := by
  induction form using induct with
  | named other =>
    rw [references]
    cases hkeyword : Scalar.ofKeyword? other.name with
    | some kind =>
      constructor
      · intro h; exact absurd h (by simp)
      · rintro (h | _ | _)
        rw [hkeyword] at h
        exact absurd h (by simp)
    | none =>
      constructor
      · intro h
        obtain rfl : ident = other := by simpa using h
        exact .named hkeyword
      · rintro (_ | _ | _)
        simp
  | callable params returns span ihParams ihReturns =>
    rw [references, referencesAll_eq_flatMap, List.mem_append, List.mem_flatMap]
    constructor
    · rintro (⟨form, hmem, h⟩ | h)
      · exact .param hmem ((ihParams form hmem).mp h)
      · exact .returns (ihReturns.mp h)
    · rintro (_ | ⟨hmem, h⟩ | h)
      · exact Or.inl ⟨_, hmem, (ihParams _ hmem).mpr h⟩
      · exact Or.inr (ihReturns.mpr h)

/-! ## Denotation -/

/-- An annotation denotes a type, where names of records stand for the types that `types` relates
them to. The parameters of a callable form are called `arg0`, `arg1`, … -/
inductive Denotes (types : String → Ty → Prop) : TyForm → Ty → Prop
  | keyword {ident : Ident} {kind : Scalar} (hkeyword : Scalar.ofKeyword? ident.name = some kind) :
      Denotes types (.named ident) (.scalar kind)
  | record {ident : Ident} {ty : Ty} (hkeyword : Scalar.ofKeyword? ident.name = none)
      (htype : types ident.name ty) : Denotes types (.named ident) ty
  | callable {forms : List TyForm} {returns : TyForm} {span : Span} {params : List (Param Ty)}
      {result : Ty} (hlength : params.length = forms.length)
      (hnames : ∀ i (h : i < params.length), params[i].name = "arg" ++ Nat.repr i)
      (hparams : ∀ i (h : i < forms.length) (h' : i < params.length),
        Denotes types forms[i] params[i].ty)
      (hreturns : Denotes types returns result) :
      Denotes types (.callable forms returns span) (.callable params result)

variable {types types' : String → Ty → Prop}

/-- Only the names that an annotation mentions matter to what it denotes. -/
theorem Denotes.mono {form : TyForm} {ty : Ty} (h : form.Denotes types ty)
    (hsub : ∀ ident, form.Mentions ident → ∀ ty, types ident.name ty → types' ident.name ty) :
    form.Denotes types' ty := by
  induction h with
  | keyword hkeyword => exact .keyword hkeyword
  | record hkeyword htype => exact .record hkeyword (hsub _ (.named hkeyword) _ htype)
  | callable hlength hnames _ _ ihParams ihReturns =>
    refine .callable hlength hnames (fun i h h' => ihParams i h h' ?_) (ihReturns ?_)
    · exact fun ident hident => hsub ident (.param (List.getElem_mem h) hident)
    · exact fun ident hident => hsub ident (.returns hident)

/-- If no name has two types, no annotation denotes two. -/
theorem Denotes.unique {form : TyForm} {ty ty' : Ty} (h : form.Denotes types ty)
    (huniq : ∀ ident, form.Mentions ident → ∀ ty ty', types ident.name ty → types' ident.name ty' →
      ty = ty')
    (h' : form.Denotes types' ty') : ty = ty' := by
  induction h generalizing ty' with
  | keyword hkeyword =>
    cases h' with
    | keyword hkeyword' => rw [hkeyword] at hkeyword'; rw [Option.some.inj hkeyword']
    | record hkeyword' _ => rw [hkeyword] at hkeyword'; exact absurd hkeyword' (by simp)
  | record hkeyword htype =>
    cases h' with
    | keyword hkeyword' => rw [hkeyword] at hkeyword'; exact absurd hkeyword' (by simp)
    | record _ htype' => exact huniq _ (.named hkeyword) _ _ htype htype'
  | callable hlength hnames _ _ ihParams ihReturns =>
    cases h' with
    | callable hlength' hnames' hparams' hreturns' =>
      have hresult := ihReturns (fun ident hident => huniq ident (.returns hident)) hreturns'
      congr 1
      refine List.ext_getElem (by rw [hlength, hlength']) fun i h₁ h₂ => ?_
      have hform := hlength ▸ h₁
      have hty := ihParams i hform h₁
        (fun ident hident => huniq ident (.param (List.getElem_mem hform) hident))
        (hparams' i hform h₂)
      have hname := (hnames i h₁).trans (hnames' i h₂).symm
      exact Param.ext hname hty

/-! ## The computed denotation -/

variable {known : String → Option Ty}

theorem denoteAll?_eq_some_iff {forms : List TyForm} {tys : List Ty} :
    denoteAll? known forms = some tys ↔
      List.Forall₂ (fun form ty => form.denote? known = some ty) forms tys := by
  induction forms generalizing tys with
  | nil =>
    rw [denoteAll?, List.forall₂_nil_left_iff]
    exact ⟨fun h => (Option.some.inj h).symm, fun h => congrArg some h.symm⟩
  | cons form rest ih =>
    rw [denoteAll?]
    constructor
    · intro h
      obtain ⟨ty, hty, h⟩ := Option.bind_eq_some_iff.mp h
      obtain ⟨rests, hrests, h⟩ := Option.bind_eq_some_iff.mp h
      cases h
      exact .cons hty (ih.mp hrests)
    · rintro (_ | ⟨hty, hrests⟩)
      rw [hty, ih.mpr hrests]
      rfl

/-- The computed denotation is the one that the rules give. -/
theorem denote?_eq_some_iff {form : TyForm} {ty : Ty} :
    form.denote? known = some ty ↔ form.Denotes (fun name ty => known name = some ty) ty := by
  induction form using induct generalizing ty with
  | named ident =>
    rw [denote?]
    cases hkeyword : Scalar.ofKeyword? ident.name with
    | some kind =>
      constructor
      · intro h; cases h; exact .keyword hkeyword
      · rintro (h | ⟨h, _⟩ | _) <;> rw [hkeyword] at h
        · rw [Option.some.inj h]
        · exact absurd h (by simp)
    | none =>
      constructor
      · intro h; exact .record hkeyword h
      · rintro (h | ⟨_, h⟩ | _)
        · rw [hkeyword] at h; exact absurd h (by simp)
        · exact h
  | callable forms returns span ihParams ihReturns =>
    rw [denote?]
    constructor
    · intro h
      obtain ⟨tys, htys, h⟩ := Option.bind_eq_some_iff.mp h
      obtain ⟨result, hresult, h⟩ := Option.bind_eq_some_iff.mp h
      rw [callable?_positional] at h
      cases h
      have hall := denoteAll?_eq_some_iff.mp htys
      refine .callable ?_ ?_ ?_ (ihReturns.mp hresult)
      · rw [positional, List.length_mapIdx, hall.length_eq]
      · intro i h
        simp [positional]
      · intro i h h'
        have hi : i < tys.length := hall.length_eq ▸ h
        have hty : forms[i].denote? known = some tys[i] := hall.get h hi
        simpa [positional] using (ihParams _ (List.getElem_mem h)).mp hty
    · rintro (_ | _ | ⟨hlength, hnames, hparams, hreturns⟩)
      rename_i params result
      have hall : denoteAll? known forms = some (params.map Param.ty) := by
        rw [denoteAll?_eq_some_iff, List.forall₂_iff_get]
        refine ⟨by rw [List.length_map, hlength], fun i h h' => ?_⟩
        have hi : i < params.length := by rwa [List.length_map] at h'
        have hty := (ihParams _ (List.getElem_mem h)).mpr (hparams i h hi)
        simpa using hty
      have hpos : positional (params.map Param.ty) = params := by
        refine List.ext_getElem (by simp [positional]) fun i h₁ h₂ => ?_
        refine Param.ext ?_ ?_
        · simpa [positional] using (hnames i h₂).symm
        · simp [positional]
      rw [hall, ihReturns.mpr hreturns]
      simp only [Option.bind_eq_bind, Option.bind_some, hpos]
      rw [← hpos, callable?_positional, hpos]
      rfl

theorem denote?_iff (hknows : Knows known types) {form : TyForm} {ty : Ty} :
    form.denote? known = some ty ↔ form.Denotes types ty := by
  rw [denote?_eq_some_iff, hknows.eq]

/-- An annotation denotes a type once every name that it mentions stands for one. -/
theorem exists_denotes_iff {form : TyForm} :
    (∃ ty, form.Denotes types ty) ↔ ∀ ident, form.Mentions ident → ∃ ty, types ident.name ty := by
  constructor
  · rintro ⟨ty, h⟩
    induction h with
    | keyword hkeyword =>
      rintro ident (h | _ | _)
      rw [hkeyword] at h
      exact absurd h (by simp)
    | record _ htype =>
      rintro ident (_ | _ | _)
      exact ⟨_, htype⟩
    | callable hlength _ _ _ ihParams ihReturns =>
      rintro ident (_ | ⟨hmem, hident⟩ | hident)
      · obtain ⟨i, hi, rfl⟩ := List.getElem_of_mem hmem
        exact ihParams i hi (hlength ▸ hi) ident hident
      · exact ihReturns ident hident
  · intro h
    induction form using induct with
    | named ident =>
      cases hkeyword : Scalar.ofKeyword? ident.name with
      | some kind => exact ⟨_, .keyword hkeyword⟩
      | none =>
        obtain ⟨ty, hty⟩ := h ident (.named hkeyword)
        exact ⟨ty, .record hkeyword hty⟩
    | callable forms returns span ihParams ihReturns =>
      obtain ⟨result, hresult⟩ := ihReturns fun ident hident => h ident (.returns hident)
      have hparams : ∀ i : Fin forms.length, ∃ ty, forms[i].Denotes types ty := fun i =>
        ihParams _ (List.getElem_mem i.2) fun ident hident =>
          h ident (.param (List.getElem_mem i.2) hident)
      choose tys htys using hparams
      refine ⟨.callable (positional (List.ofFn tys)) result, .callable ?_ ?_ ?_ hresult⟩
      · simp [positional]
      · intro i h; simp [positional]
      · intro i h h'
        simpa [positional] using htys ⟨i, h⟩

end TyForm

end Conform
