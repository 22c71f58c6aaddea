import Conform.Proofs.References

/-!
# Names in expressions and statements

The names that an expression or statement mentions, as a value, as a callee or as the target of an
assignment, and what becomes of it when they are exchanged for others (`Expr.rename`,
`Stmt.rename`). Annotations and the keys of dict literals are names of another kind and stay.

Only the mentioned names matter to a renaming (`Expr.rename_eq_self`), two renamings are one
(`Expr.rename_rename`), and afterwards the new names are mentioned in place of the old ones
(`Expr.mentions_rename_iff`); likewise for statements.
-/

namespace Conform

/-! ## Mentions -/

/-- A name is used in an expression, as a value or as a callee, at any depth. -/
def Expr.Mentions (e : Expr) (name : String) : Prop :=
  ∃ use ident, e.Uses use ident ∧ ident.name = name

/-- A name is used in a statement or is the target of an assignment. -/
def Stmt.Mentions : Stmt → String → Prop
  | .expr value, name => value.Mentions name
  | .ret value? _, name => ∃ value ∈ value?, value.Mentions name
  | .assign a, name => a.target.name = name ∨ a.value.Mentions name

namespace Expr

variable {n : String}

theorem not_mentions_scalar (kind : Scalar) (span : Span) : ¬ (scalar kind span).Mentions n := by
  intro h
  obtain ⟨_, _, h, _⟩ := h
  exact not_uses_scalar kind span h

theorem mentions_name_iff {ident : Ident} : (name ident).Mentions n ↔ ident.name = n := by
  unfold Mentions
  simp only [uses_name_iff]
  constructor
  · intro h
    obtain ⟨_, _, ⟨_, rfl⟩, hname⟩ := h
    exact hname
  · intro h
    exact ⟨.value, ident, ⟨rfl, rfl⟩, h⟩

theorem mentions_dict_iff {entries : List (Entry Expr)} {span : Span} :
    (dict entries span).Mentions n ↔ ∃ entry ∈ entries, entry.value.Mentions n := by
  unfold Mentions
  simp only [uses_dict_iff]
  constructor
  · intro h
    obtain ⟨use, ident, ⟨entry, hmem, h⟩, hname⟩ := h
    exact ⟨entry, hmem, use, ident, h, hname⟩
  · intro h
    obtain ⟨entry, hmem, use, ident, h, hname⟩ := h
    exact ⟨use, ident, ⟨entry, hmem, h⟩, hname⟩

theorem mentions_call_iff {callee : Ident} {args : List Expr} {span : Span} :
    (call callee args span).Mentions n ↔ callee.name = n ∨ ∃ arg ∈ args, arg.Mentions n := by
  unfold Mentions
  simp only [uses_call_iff]
  constructor
  · intro h
    obtain ⟨use, ident, ⟨_, rfl⟩ | ⟨arg, hmem, h⟩, hname⟩ := h
    · exact Or.inl hname
    · exact Or.inr ⟨arg, hmem, use, ident, h, hname⟩
  · intro h
    rcases h with hname | ⟨arg, hmem, use, ident, h, hname⟩
    · exact ⟨.callee, callee, Or.inl ⟨rfl, rfl⟩, hname⟩
    · exact ⟨use, ident, Or.inr ⟨arg, hmem, h⟩, hname⟩

end Expr

/-! ## Renaming -/

def Ident.rename (f : String → String) (i : Ident) : Ident :=
  ⟨f i.name, i.span⟩

mutual

def Expr.rename (f : String → String) : Expr → Expr
  | .scalar kind span => .scalar kind span
  | .dict entries span => .dict (Expr.renameEntries f entries) span
  | .call callee args span => .call (callee.rename f) (Expr.renameAll f args) span
  | .name ident => .name (ident.rename f)

def Expr.renameAll (f : String → String) : List Expr → List Expr
  | [] => []
  | e :: rest => e.rename f :: Expr.renameAll f rest

def Expr.renameEntries (f : String → String) : List (Entry Expr) → List (Entry Expr)
  | [] => []
  | ⟨key, value, span⟩ :: rest => ⟨key, value.rename f, span⟩ :: Expr.renameEntries f rest

end

def Entry.rename (f : String → String) (entry : Entry Expr) : Entry Expr :=
  ⟨entry.key, entry.value.rename f, entry.span⟩

def Assignment.rename (f : String → String) (a : Assignment) : Assignment :=
  { a with target := a.target.rename f, value := a.value.rename f }

def Stmt.rename (f : String → String) : Stmt → Stmt
  | .expr value => .expr (value.rename f)
  | .ret value? span => .ret (value?.map (·.rename f)) span
  | .assign a => .assign (a.rename f)

/-- Renames in the body of a function only. -/
def FunctionDecl.renameBody (f : String → String) (decl : FunctionDecl) : FunctionDecl :=
  { decl with body := decl.body.map (Stmt.rename f) }

namespace Expr

variable {f g : String → String}

theorem renameAll_eq_map (es : List Expr) : renameAll f es = es.map (·.rename f) := by
  induction es with
  | nil => rfl
  | cons e rest ih => rw [renameAll, ih, List.map_cons]

theorem renameEntries_eq_map (entries : List (Entry Expr)) :
    renameEntries f entries = entries.map (Entry.rename f) := by
  induction entries with
  | nil => rfl
  | cons entry rest ih =>
    obtain ⟨key, value, span⟩ := entry
    rw [renameEntries, ih, List.map_cons, Entry.rename]

theorem rename_rename (e : Expr) : (e.rename f).rename g = e.rename (g ∘ f) := by
  induction e using Expr.induct with
  | scalar kind span => rw [rename, rename, rename]
  | dict entries span ih =>
    simp only [rename, renameEntries_eq_map, List.map_map]
    congr 1
    apply List.map_congr_left
    intro entry hentry
    simp only [Function.comp_apply, Entry.rename, ih entry hentry]
  | call callee args span ih =>
    simp only [rename, renameAll_eq_map, List.map_map]
    congr 1
    apply List.map_congr_left
    intro arg harg
    exact ih arg harg
  | name ident => rw [rename, rename, rename]; rfl

/-- Only the mentioned names matter. -/
theorem rename_eq_self {e : Expr} (h : ∀ n, e.Mentions n → f n = n) : e.rename f = e := by
  induction e using Expr.induct with
  | scalar kind span => rw [rename]
  | dict entries span ih =>
    rw [rename, renameEntries_eq_map]
    congr 1
    apply (List.map_congr_left fun entry hentry => ?_).trans (List.map_id entries)
    have hvalue := ih entry hentry fun n hn => h n (mentions_dict_iff.mpr ⟨entry, hentry, hn⟩)
    rw [Entry.rename, hvalue]
    rfl
  | call callee args span ih =>
    rw [rename, renameAll_eq_map]
    have hcallee : callee.rename f = callee := by
      rw [Ident.rename, h callee.name (mentions_call_iff.mpr (Or.inl rfl))]
    rw [hcallee]
    congr 1
    apply (List.map_congr_left fun arg harg => ?_).trans (List.map_id args)
    exact ih arg harg fun n hn => h n (mentions_call_iff.mpr (Or.inr ⟨arg, harg, hn⟩))
  | name ident => rw [rename, Ident.rename, h ident.name (mentions_name_iff.mpr rfl)]

theorem mentions_rename_iff {e : Expr} {n : String} :
    (e.rename f).Mentions n ↔ ∃ m, e.Mentions m ∧ f m = n := by
  induction e using Expr.induct with
  | scalar kind span =>
    rw [rename]
    refine iff_of_false (not_mentions_scalar kind span) ?_
    intro h
    obtain ⟨_, h, _⟩ := h
    exact not_mentions_scalar kind span h
  | dict entries span ih =>
    rw [rename, renameEntries_eq_map, mentions_dict_iff]
    simp only [mentions_dict_iff, List.mem_map]
    constructor
    · intro h
      obtain ⟨_, ⟨entry, hentry, rfl⟩, h⟩ := h
      obtain ⟨m, hm, hfm⟩ := (ih entry hentry).mp h
      exact ⟨m, ⟨entry, hentry, hm⟩, hfm⟩
    · intro h
      obtain ⟨m, ⟨entry, hentry, hm⟩, hfm⟩ := h
      exact ⟨entry.rename f, ⟨entry, hentry, rfl⟩, (ih entry hentry).mpr ⟨m, hm, hfm⟩⟩
  | call callee args span ih =>
    rw [rename, renameAll_eq_map, mentions_call_iff]
    simp only [mentions_call_iff, List.mem_map]
    constructor
    · intro h
      rcases h with hname | ⟨_, ⟨arg, harg, rfl⟩, h⟩
      · exact ⟨callee.name, Or.inl rfl, hname⟩
      · obtain ⟨m, hm, hfm⟩ := (ih arg harg).mp h
        exact ⟨m, Or.inr ⟨arg, harg, hm⟩, hfm⟩
    · intro h
      obtain ⟨m, rfl | ⟨arg, harg, hm⟩, hfm⟩ := h
      · exact Or.inl hfm
      · exact Or.inr ⟨arg.rename f, ⟨arg, harg, rfl⟩, (ih arg harg).mpr ⟨m, hm, hfm⟩⟩
  | name ident =>
    rw [rename, mentions_name_iff]
    simp only [mentions_name_iff, exists_eq_left']
    rfl

end Expr

namespace Stmt

variable {f g : String → String}

theorem rename_rename (s : Stmt) : (s.rename f).rename g = s.rename (g ∘ f) := by
  cases s with
  | expr value => simp only [rename, Expr.rename_rename]
  | ret value? span => cases value? <;> simp only [rename, Option.map_some, Option.map_none,
      Expr.rename_rename]
  | assign a => simp only [rename, Assignment.rename, Ident.rename, Expr.rename_rename]; rfl

theorem rename_eq_self {s : Stmt} (h : ∀ n, s.Mentions n → f n = n) : s.rename f = s := by
  cases s with
  | expr value => rw [rename, Expr.rename_eq_self h]
  | ret value? span =>
    cases value? with
    | none => rfl
    | some value =>
      rw [rename, Option.map_some, Expr.rename_eq_self fun n hn => h n ⟨value, rfl, hn⟩]
  | assign a =>
    rw [rename, Assignment.rename, Ident.rename, h a.target.name (Or.inl rfl),
      Expr.rename_eq_self fun n hn => h n (Or.inr hn)]

theorem mentions_rename_iff {s : Stmt} {n : String} :
    (s.rename f).Mentions n ↔ ∃ m, s.Mentions m ∧ f m = n := by
  cases s with
  | expr value => exact Expr.mentions_rename_iff
  | ret value? span =>
    cases value? with
    | none => simp [rename, Mentions]
    | some value => simpa [rename, Mentions] using Expr.mentions_rename_iff
  | assign a =>
    simp only [rename, Mentions, Assignment.rename, Ident.rename, Expr.mentions_rename_iff,
      or_and_right, exists_or, exists_eq_left']

end Stmt

end Conform
