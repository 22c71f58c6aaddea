import Conform.Proofs.WellTyped

/-!
# The scope at every statement

The checker carries a scope from statement to statement; the rules look back at the statements
before (`VariableAfter`). This file shows that the two agree at every statement of a module whose
annotations all denote types (`fits_scopeAfter`).

The induction takes off the **last** statement, since that is the one that decides: an annotated
assignment to a variable settles what is known of it, one without an annotation settles something
only if nothing was known, and any other statement nothing.
-/

namespace Conform

/-! ## Variables after statements -/

/-- If some element of a list has a property, one of them is the last. -/
theorem exists_last {α : Type} {p : α → Prop} {l : List α} (h : ∃ x ∈ l, p x) :
    ∃ before x after, l = before ++ x :: after ∧ p x ∧ ∀ y ∈ after, ¬ p y := by
  induction l with
  | nil =>
    obtain ⟨_, hmem, _⟩ := h
    exact absurd hmem (by simp)
  | cons head rest ih =>
    by_cases hrest : ∃ x ∈ rest, p x
    · obtain ⟨before, x, after, hsplit, hx, hlast⟩ := ih hrest
      exact ⟨head :: before, x, after, by rw [hsplit, List.cons_append], hx, hlast⟩
    · obtain ⟨x, hmem, hx⟩ := h
      rcases List.mem_cons.mp hmem with rfl | hmem
      · exact ⟨[], x, rest, rfl, hx, fun y hy hpy => hrest ⟨y, hy, hpy⟩⟩
      · exact absurd ⟨x, hmem, hx⟩ hrest

/-- An element of a list with one more at its end is that one or stands before it. -/
theorem append_singleton_split {α : Type} {l before after : List α} {x y : α}
    (h : l ++ [y] = before ++ x :: after) :
    (x = y ∧ after = []) ∨ ∃ after', after = after' ++ [y] ∧ l = before ++ x :: after' := by
  rcases List.eq_nil_or_concat after with rfl | ⟨after', last, rfl⟩
  · obtain ⟨_, hlast⟩ := List.append_inj' h rfl
    exact Or.inl ⟨(List.cons.inj hlast).1.symm, rfl⟩
  · rw [List.concat_eq_append, ← List.cons_append, ← List.append_assoc] at h
    obtain ⟨hl, hlast⟩ := List.append_inj' h rfl
    obtain rfl := (List.cons.inj hlast).1
    exact Or.inr ⟨after', by rw [List.concat_eq_append], hl⟩

/-- Every annotation of an assignment among some statements denotes a type. -/
def Denoted (types : String → Ty → Prop) (stmts : List Stmt) : Prop :=
  ∀ a form, .assign a ∈ stmts → a.form = some form → ∃ ty, form.Denotes types ty

section VariableAfter

variable {types : String → Ty → Prop} {Variable : String → Binding → Prop} {stmts : List Stmt}
  {name : String} {binding : Binding}

theorem variableAfter_nil :
    VariableAfter types Variable [] name binding ↔ Variable name binding := by
  constructor
  · intro h
    cases h with
    | annotated hsplit => exact absurd hsplit (by simp)
    | kept _ h => exact h
    | plain _ hmem => exact absurd hmem (by simp)
  · intro h
    exact .kept (fun _ hmem => absurd hmem (by simp)) h

/-- What is known of a variable stays so after a statement that gives it no annotation. -/
theorem VariableAfter.append {stmt : Stmt}
    (hplain : ∀ a, stmt = .assign a → a.target.name = name → a.form = none)
    (h : VariableAfter types Variable stmts name binding) :
    VariableAfter types Variable (stmts ++ [stmt]) name binding := by
  have hall : (∀ a, .assign a ∈ stmts → a.target.name = name → a.form = none) →
      ∀ a, .assign a ∈ stmts ++ [stmt] → a.target.name = name → a.form = none := by
    intro hstmts a hmem hname
    rcases List.mem_append.mp hmem with hmem | hmem
    · exact hstmts a hmem hname
    · exact hplain a (List.mem_singleton.mp hmem).symm hname
  cases h with
  | @annotated before after a ty hsplit hty hlast =>
    have hsplit' : stmts ++ [stmt] = before ++ .assign a :: (after ++ [stmt]) := by
      rw [hsplit]; simp
    refine .annotated hsplit' hty fun b hb hname => ?_
    rcases List.mem_append.mp hb with hb | hb
    · exact hlast b hb hname
    · exact hplain b (List.mem_singleton.mp hb).symm hname
  | kept hstmts h => exact .kept (hall hstmts) h
  | plain hstmts hmem hname hnew =>
    exact .plain (hall hstmts) (List.mem_append_left _ hmem) hname hnew

/-- What is known after one more statement was known before it, unless the statement assigns to
the variable. -/
theorem VariableAfter.of_append {stmt : Stmt}
    (hother : ∀ a, stmt = .assign a → a.target.name ≠ name)
    (h : VariableAfter types Variable (stmts ++ [stmt]) name binding) :
    VariableAfter types Variable stmts name binding := by
  cases h with
  | @annotated before after a ty hsplit hty hlast =>
    rcases append_singleton_split hsplit with ⟨heq, _⟩ | ⟨after', rfl, hsplit'⟩
    · exact absurd hty.1 (hother a heq.symm)
    · exact .annotated hsplit' hty fun b hb hname => hlast b (List.mem_append_left _ hb) hname
  | kept hplain h =>
    exact .kept (fun a hmem hname => hplain a (List.mem_append_left _ hmem) hname) h
  | @plain a hplain hmem hname hnew =>
    refine .plain (fun a hmem hname => hplain a (List.mem_append_left _ hmem) hname) ?_ hname hnew
    rcases List.mem_append.mp hmem with hmem | hmem
    · exact hmem
    · exact absurd hname (hother a (List.mem_singleton.mp hmem).symm)

/-- An annotation decides. -/
theorem variableAfter_append_annotated {a : Assignment} {form : TyForm}
    (hform : a.form = some form) :
    VariableAfter types Variable (stmts ++ [.assign a]) a.target.name binding ↔
      ∃ ty, form.Denotes types ty ∧ binding = .typed ty := by
  have hmem : Stmt.assign a ∈ stmts ++ [.assign a] := by simp
  have hsome : a.form ≠ none := by simp [hform]
  constructor
  · intro h
    cases h with
    | @annotated before after other ty hsplit hty hlast =>
      rcases append_singleton_split hsplit with ⟨heq, _⟩ | ⟨after', rfl, _⟩
      · cases heq
        obtain ⟨_, form', hform', hty⟩ := hty
        rw [hform] at hform'
        cases hform'
        exact ⟨ty, hty, rfl⟩
      · exact absurd (hlast a (by simp) rfl) hsome
    | kept hplain => exact absurd (hplain a hmem rfl) hsome
    | plain hplain => exact absurd (hplain a hmem rfl) hsome
  · intro h
    obtain ⟨ty, hty, rfl⟩ := h
    exact .annotated rfl ⟨rfl, form, hform, hty⟩ fun _ hb => absurd hb (by simp)

/-- A variable of which nothing is known is in none of the statements. -/
theorem not_assigned_of_unknown (hdenoted : Denoted types stmts)
    (hnone : ∀ other, ¬ VariableAfter types Variable stmts name other) :
    (∀ a, .assign a ∈ stmts → a.target.name ≠ name) ∧ ∀ other, ¬ Variable name other := by
  have hplain : ∀ a, .assign a ∈ stmts → a.target.name = name → a.form = none := by
    intro a hmem hname
    cases hform : a.form with
    | none => rfl
    | some form =>
      -- The last annotation of the variable would give it a type.
      obtain ⟨before, stmt, after, hsplit, ⟨b, hb, hbname, hbform⟩, hlast⟩ :=
        exists_last (p := fun stmt => ∃ b, stmt = .assign b ∧ b.target.name = name ∧
          b.form ≠ none) ⟨_, hmem, a, rfl, hname, by simp [hform]⟩
      subst hb
      obtain ⟨form', hform'⟩ := Option.ne_none_iff_exists'.mp hbform
      obtain ⟨ty, hty⟩ := hdenoted b form' (by rw [hsplit]; simp) hform'
      refine absurd (.annotated hsplit ⟨hbname, form', hform', hty⟩ ?_) (hnone (.typed ty))
      intro c hc hcname
      by_contra hcform
      exact hlast _ hc ⟨c, rfl, hcname, hcform⟩
  have hvariable : ∀ other, ¬ Variable name other := fun other h => hnone other (.kept hplain h)
  exact ⟨fun a hmem hname => hnone .untyped (.plain hplain hmem hname hvariable), hvariable⟩

/-- Without an annotation an assignment makes a variable known at least. -/
theorem variableAfter_append_plain (hdenoted : Denoted types stmts) {a : Assignment}
    (hform : a.form = none) :
    VariableAfter types Variable (stmts ++ [.assign a]) a.target.name binding ↔
      VariableAfter types Variable stmts a.target.name binding ∨
        (∀ other, ¬ VariableAfter types Variable stmts a.target.name other) ∧
          binding = .untyped := by
  have hkeep : ∀ b, Stmt.assign a = .assign b → b.target.name = a.target.name → b.form = none := by
    intro b hb _
    cases hb
    exact hform
  constructor
  · intro h
    cases h with
    | @annotated before after other ty hsplit hty hlast =>
      rcases append_singleton_split hsplit with ⟨heq, _⟩ | ⟨after', rfl, hsplit'⟩
      · cases heq
        obtain ⟨_, form, hform', _⟩ := hty
        exact absurd (hform.symm.trans hform') (by simp)
      · exact Or.inl (.annotated hsplit' hty fun b hb hname =>
          hlast b (List.mem_append_left _ hb) hname)
    | kept hplain h =>
      exact Or.inl (.kept (fun b hmem hname => hplain b (List.mem_append_left _ hmem) hname) h)
    | plain hplain hmem hname hnew =>
      have hplain' : ∀ b, .assign b ∈ stmts → b.target.name = a.target.name → b.form = none :=
        fun b hmem hname => hplain b (List.mem_append_left _ hmem) hname
      -- Only the first assignment of a variable makes it known; a later one finds it so.
      by_cases hbefore : ∃ b, .assign b ∈ stmts ∧ b.target.name = a.target.name
      · obtain ⟨b, hb, hbname⟩ := hbefore
        exact Or.inl (.plain hplain' hb hbname hnew)
      · refine Or.inr ⟨fun other h => ?_, rfl⟩
        cases h with
        | annotated hsplit hty _ => exact hbefore ⟨_, by rw [hsplit]; simp, hty.1⟩
        | kept _ h => exact hnew other h
        | plain _ hmem hname _ => exact hbefore ⟨_, hmem, hname⟩
  · intro h
    rcases h with h | ⟨hnone, rfl⟩
    · exact h.append hkeep
    · obtain ⟨hnot, hvariable⟩ := not_assigned_of_unknown hdenoted hnone
      refine .plain (fun b hmem hname => ?_) (List.mem_append_right _ (List.mem_singleton_self _))
        rfl hvariable
      rcases List.mem_append.mp hmem with hmem | hmem
      · exact absurd hname (hnot b hmem)
      · exact hkeep b (List.mem_singleton.mp hmem).symm hname

end VariableAfter

/-! ## Scopes after statements -/

/-- The scope that statements leave. -/
def scopeAfter (g : Globals) (place : Place) (scope : Scope) (stmts : List Stmt) : Scope :=
  stmts.foldl (fun scope stmt => stmt.leaves g place scope) scope

section Fits

variable {types : String → Ty → Prop} {g : Globals} {place : Place} {scope : Scope} {Γ : Context}
  {stmts : List Stmt}

/-- An assignment to a variable binds what the rules say is known of it then. -/
theorem bindingIn_iff (hknows : Knows g.known types)
    (hlocal : ∀ name binding, scope.local? name = some binding ↔
      VariableAfter types Γ.Variable stmts name binding)
    {a : Assignment} (hdenoted : Denoted types (stmts ++ [.assign a])) {binding : Binding} :
    a.bindingIn g scope = binding ↔
      VariableAfter types Γ.Variable (stmts ++ [.assign a]) a.target.name binding := by
  unfold Assignment.bindingIn
  cases hform : a.form with
  | some form =>
    obtain ⟨ty, hty⟩ := hdenoted a form (by simp) hform
    have hknown : a.binding g.known = .typed ty := by
      rw [Assignment.binding, hform, Option.bind_some, (TyForm.denote?_iff hknows).mpr hty]
      rfl
    rw [variableAfter_append_annotated hform]
    dsimp only
    rw [hknown]
    constructor
    · intro h
      exact ⟨ty, hty, h.symm⟩
    · intro h
      obtain ⟨ty', hty', rfl⟩ := h
      rw [← TyForm.denote?_iff hknows] at hty hty'
      rw [Option.some.inj (hty.symm.trans hty')]
  | none =>
    have hbefore : Denoted types stmts := fun b form hmem =>
      hdenoted b form (List.mem_append_left _ hmem)
    rw [variableAfter_append_plain hbefore hform]
    simp only [← hlocal]
    cases scope.local? a.target.name with
    | none => simp [eq_comm]
    | some before => simp

/-- One statement: its scope fits its context. -/
theorem fits_leaves (hknows : Knows g.known types)
    (hfits : scope.Fits (Γ.after types stmts)) {stmt : Stmt}
    (hdenoted : Denoted types (stmts ++ [stmt]))
    (hassign : ∀ a, stmt = .assign a → a.isRedefinition g place = false) :
    (stmt.leaves g place scope).Fits (Γ.after types (stmts ++ [stmt])) := by
  -- A statement that assigns nothing leaves the scope as it is, and what is known of variables.
  have hskip : (∀ a, stmt ≠ .assign a) → scope.Fits (Γ.after types (stmts ++ [stmt])) := by
    intro hno
    refine ⟨fun name binding => (hfits.local? name binding).trans ?_, hfits.function?,
      hfits.declared⟩
    constructor
    · intro h
      exact VariableAfter.append (fun a ha => absurd ha (hno a)) h
    · intro h
      exact VariableAfter.of_append (fun a ha => absurd ha (hno a)) h
  cases stmt with
  | expr value => exact hskip fun _ => nofun
  | ret value? span => exact hskip fun _ => nofun
  | assign a =>
    have hleaves : (Stmt.assign a).leaves g place scope =
        scope.bind a.target.name (a.bindingIn g scope) := by
      rw [Stmt.leaves, hassign a rfl]
      rfl
    rw [hleaves]
    refine ⟨fun name binding => ?_, hfits.function?, hfits.declared⟩
    rw [Scope.local?_bind]
    by_cases hname : a.target.name = name
    · subst hname
      rw [if_pos rfl, Option.some.injEq]
      exact bindingIn_iff hknows hfits.local? hdenoted
    · rw [if_neg hname]
      refine (hfits.local? name binding).trans ⟨fun h => ?_, fun h => ?_⟩
      · refine VariableAfter.append (fun b hb hbname => ?_) h
        cases hb
        exact absurd hbname hname
      · refine VariableAfter.of_append (fun b hb hbname => ?_) h
        cases hb
        exact hname hbname

/-- A run of statements: the scope after them fits the context after them. -/
theorem fits_scopeAfter (hknows : Knows g.known types)
    (hfits : scope.Fits Γ) (hdenoted : Denoted types stmts)
    (hassign : ∀ a, .assign a ∈ stmts → a.isRedefinition g place = false) :
    (scopeAfter g place scope stmts).Fits (Γ.after types stmts) := by
  induction stmts using List.reverseRecOn with
  | nil =>
    refine ⟨fun name binding => ?_, hfits.function?, hfits.declared⟩
    exact (hfits.local? name binding).trans variableAfter_nil.symm
  | append_singleton stmts stmt ih =>
    have hbefore := ih (fun a form hmem => hdenoted a form (List.mem_append_left _ hmem))
      fun a hmem => hassign a (List.mem_append_left _ hmem)
    unfold scopeAfter at hbefore ⊢
    rw [List.foldl_append]
    exact fits_leaves hknows hbefore hdenoted fun a ha => hassign a (by simp [ha])

end Fits

/-! ## The scopes in which statements start -/

/-- Binding parameters changes nothing but variables. -/
theorem read_bodyScope {β : Type} (read : Scope → β)
    (hbind : ∀ scope name binding, read (scope.bind name binding) = read scope) {g : Globals}
    {decl : FunctionDecl} : read (decl.bodyScope g) = read g.scope.push := by
  unfold FunctionDecl.bodyScope
  exact read_foldl_eq read (fun scope param => hbind scope _ _) _ _

/-- The parameters of a function hide what is around it. -/
theorem fits_bodyScope {types : String → Ty → Prop} {g : Globals} {Γ : Context}
    (hknows : Knows g.known types) (hfits : g.scope.push.Fits Γ)
    {decl : FunctionDecl} (hdistinct : (decl.params.map fun param => param.name.name).Nodup)
    (hdenoted : ∀ param ∈ decl.params, ∃ ty, param.form.Denotes types ty) :
    (decl.bodyScope g).Fits (decl.context types Γ) := by
  refine ⟨fun name binding => ?_, fun name signature => ?_, fun name => ?_⟩
  · have hread := read_foldl (fun param : ParamDecl => param.name.name)
      (fun scope param => scope.bind param.name.name (.ofOption (param.form.denote? g.known))) name
      (fun scope => scope.local? name)
      (fun param _ => some (.ofOption (param.form.denote? g.known)))
      (fun scope param => Scope.local?_bind scope param.name.name name _) hdistinct g.scope.push
    unfold FunctionDecl.bodyScope FunctionDecl.context
    rw [hread]
    cases hfind : decl.params.find? fun param => param.name.name = name with
    | some param =>
      obtain ⟨hmem, hname⟩ := (find?_key_eq_some_iff hdistinct).mp hfind
      obtain ⟨ty, hty⟩ := hdenoted param hmem
      have hdenote := (TyForm.denote?_iff hknows).mpr hty
      simp only [hdenote, Binding.ofOption, Option.some.injEq]
      constructor
      · intro h
        exact Or.inl ⟨param, hmem, hname, ty, hty, h.symm⟩
      · intro h
        rcases h with ⟨other, hother, hname', ty', hty', rfl⟩ | ⟨hnone, _⟩
        · obtain rfl := List.inj_on_of_nodup_map hdistinct hmem hother (hname.trans hname'.symm)
          rw [← TyForm.denote?_iff hknows, hdenote] at hty'
          rw [Option.some.inj hty']
        · exact absurd hname (hnone param hmem)
    | none =>
      have hnone : ∀ param ∈ decl.params, param.name.name ≠ name := by
        simpa [List.find?_eq_none] using hfind
      refine (hfits.local? name binding).trans ⟨fun h => Or.inr ⟨hnone, h⟩, fun h => ?_⟩
      rcases h with ⟨param, hmem, hname, _⟩ | ⟨_, h⟩
      · exact absurd hname (hnone param hmem)
      · exact h
  · rw [read_bodyScope (fun scope => scope.function? name) fun scope other binding =>
      Scope.function?_bind scope other name binding]
    exact hfits.function? name signature
  · rw [read_bodyScope (fun scope => scope.function? name) fun scope other binding =>
        Scope.function?_bind scope other name binding,
      read_bodyScope (fun scope => scope.record? name) fun scope other binding =>
        Scope.record?_bind scope other name binding,
      read_bodyScope (fun scope => scope.isPoisoned name) fun scope other binding =>
        Scope.isPoisoned_bind scope other name binding]
    exact hfits.declared name

namespace Module

variable {m : Module}

theorem types_eq_recordTypes (hdistinct : (m.declared.map Ident.name).Nodup) :
    m.Types = m.RecordTypes := by
  rw [Types, recordsInForce_of_nodup hdistinct, RecordTypes]

/-- A declared name is found as what it declares, or it is poisoned. -/
theorem found_globals_iff {name : String} :
    ((m.globals.scope.function? name).isSome || (m.globals.scope.record? name).isSome ||
      m.globals.scope.isPoisoned name) = true ↔ ∃ ident ∈ m.declared, ident.name = name := by
  simp only [Bool.or_eq_true, isPoisoned_globals_iff, Option.isSome_iff_exists,
    function?_globals_iff, record?_globals_iff, exists_declared_iff]
  constructor
  · intro h
    rcases h with (⟨_, decl, hmem, rfl, _⟩ | ⟨_, decl, hmem, rfl, _⟩) |
      ⟨decl, hmem, rfl, _⟩ | ⟨decl, hmem, rfl, _⟩
    · exact Or.inr ⟨decl, hmem, rfl⟩
    · exact Or.inl ⟨decl, hmem, rfl⟩
    · exact Or.inl ⟨decl, hmem, rfl⟩
    · exact Or.inr ⟨decl, hmem, rfl⟩
  · intro h
    rcases h with ⟨decl, hmem, rfl⟩ | ⟨decl, hmem, rfl⟩
    · by_cases hty : ∃ ty, m.Types decl.name.name ty
      · obtain ⟨ty, hty⟩ := hty
        exact Or.inl (Or.inr ⟨⟨ty, decl.span⟩, decl, hmem, rfl, hty, rfl⟩)
      · exact Or.inr (Or.inl ⟨decl, hmem, rfl, fun ty h => hty ⟨ty, h⟩⟩)
    · by_cases hsig : ∃ signature, decl.HasSignature m.Types signature
      · obtain ⟨signature, hsig⟩ := hsig
        exact Or.inl (Or.inl ⟨⟨signature, decl.span⟩, decl, hmem, rfl, hsig, rfl⟩)
      · exact Or.inr (Or.inr ⟨decl, hmem, rfl, fun signature h => hsig ⟨signature, h⟩⟩)

/-- What the global scope holds is what the module declares, if it declares every name once. -/
theorem fits_globals (hdistinct : (m.declared.map Ident.name).Nodup) :
    m.globals.scope.Fits m.context := by
  refine ⟨fun name binding => ?_, fun name signature => ?_, fun name => found_globals_iff⟩
  · rw [local?_globals_iff, types_eq_recordTypes hdistinct]
    rfl
  · rw [Option.map_eq_some_iff]
    simp only [function?_globals_iff, functionsInForce_of_nodup hdistinct,
      types_eq_recordTypes hdistinct]
    constructor
    · intro h
      obtain ⟨_, ⟨decl, hmem, hname, hsig, _⟩, rfl⟩ := h
      exact ⟨decl, hmem, hname, hsig⟩
    · intro h
      obtain ⟨decl, hmem, hname, hsig⟩ := h
      exact ⟨⟨signature, decl.span⟩, ⟨decl, hmem, hname, hsig, rfl⟩, rfl⟩

end Module

end Conform
