import Conform.Proofs.Sites

/-!
# What is found in statements

A statement of which nothing is found has annotations of records only, evaluates its expression well
and puts it where it conforms; and conversely. The walks over a body and over the items of a module
are said to find nothing exactly if every statement on them does, each in the scope that the ones
before it leave.
-/

namespace Conform

variable {w : Widening} {g : Globals} {place : Place} {scope : Scope}

/-! ## Walks -/

/-- What is found in a body is found at one of its statements, in the scope that the statements
before it leave. -/
theorem mem_findingsOfBody_iff {stmts : List Stmt} {d : Diagnostic} :
    d ∈ findingsOfBody w g place scope stmts ↔ ∃ before stmt after,
      stmts = before ++ stmt :: after ∧
        d ∈ stmt.findings w g place (scopeAfter g place scope before) := by
  induction stmts generalizing scope with
  | nil => simp [findingsOfBody]
  | cons head rest ih =>
    rw [findingsOfBody, List.mem_append, ih]
    constructor
    · intro h
      rcases h with hhead | ⟨before, stmt, after, hrest, hd⟩
      · exact ⟨[], head, rest, rfl, hhead⟩
      · exact ⟨head :: before, stmt, after, by rw [hrest, List.cons_append], hd⟩
    · intro h
      obtain ⟨before, stmt, after, hsplit, hd⟩ := h
      cases before with
      | nil =>
        obtain ⟨rfl, _⟩ := List.cons.inj hsplit
        exact Or.inl hd
      | cons first before =>
        obtain ⟨rfl, hrest⟩ := List.cons.inj hsplit
        exact Or.inr ⟨before, stmt, after, hrest, hd⟩

/-- Nothing is found in a body exactly if nothing is found at any of its statements. -/
theorem findingsOfBody_eq_nil_iff {stmts : List Stmt} :
    findingsOfBody w g place scope stmts = [] ↔ ∀ before stmt after,
      stmts = before ++ stmt :: after →
        stmt.findings w g place (scopeAfter g place scope before) = [] := by
  simp only [List.eq_nil_iff_forall_not_mem, mem_findingsOfBody_iff, not_exists, not_and]
  constructor
  · intro h before stmt after hsplit d
    exact h d before stmt after hsplit
  · intro h d before stmt after hsplit
    exact h before stmt after hsplit d

/-- The statements after some others start in the scope that those leave. -/
theorem findingsOfBody_append (stmts rest : List Stmt) :
    findingsOfBody w g place scope (stmts ++ rest) = findingsOfBody w g place scope stmts ++
      findingsOfBody w g place (scopeAfter g place scope stmts) rest := by
  induction stmts generalizing scope with
  | nil => rfl
  | cons stmt stmts ih =>
    rw [List.cons_append, findingsOfBody, findingsOfBody, ih, List.append_assoc]
    rfl

/-- Nothing is found on items exactly if nothing is found in the functions among them, nor in the
statements, which do not see the items between them. -/
theorem findingsOfItems_eq_nil_iff {items : List Item} :
    findingsOfItems w g scope items = [] ↔
      (∀ decl, .function decl ∈ items → decl.findings w g = []) ∧
        findingsOfBody w g .topLevel scope (items.filterMap Item.stmt?) = [] := by
  simp only [List.eq_nil_iff_forall_not_mem, mem_findingsOfItems_iff, not_or, not_exists, not_and,
    forall_and]
  exact and_congr_left fun _ =>
    ⟨fun h decl hmem d => h d decl hmem, fun h d decl hmem => h decl hmem d⟩

/-! ## One statement -/

section Stmt

variable {types : String → Ty → Prop} {Γ : Context}

/-- The type that an assignment expects of its value. -/
theorem bindingIn_ty?_iff (returns? : Option TyForm) (hknows : Knows g.known types)
    (hfits : scope.Fits Γ) {a : Assignment} {ty : Ty} :
    (a.bindingIn g scope).ty? = some ty ↔
      Stmt.Expects types Γ returns? (.assign a) ty a.value := by
  unfold Assignment.bindingIn
  cases hform : a.form with
  | some form =>
    have hty : (a.binding g.known).ty? = form.denote? g.known := by
      rw [Assignment.binding, hform, Option.bind_some]
      cases form.denote? g.known <;> rfl
    dsimp only
    rw [hty, TyForm.denote?_iff hknows]
    constructor
    · intro h
      exact .annotated hform h
    · intro h
      cases h with
      | annotated hform' hty =>
        rw [hform] at hform'
        cases hform'
        exact hty
      | plain hform' => exact absurd (hform.symm.trans hform') (by simp)
  | none =>
    dsimp only
    constructor
    · intro h
      refine .plain hform ((hfits.local? _ _).mp ?_)
      cases hlocal : scope.local? a.target.name with
      | none => rw [hlocal] at h; exact absurd h (by simp [Binding.ty?])
      | some binding =>
        rw [hlocal] at h
        cases binding with
        | typed ty' => cases h; rfl
        | untyped => exact absurd h (by simp [Binding.ty?])
    · intro h
      cases h with
      | annotated hform' => exact absurd (hform.symm.trans hform') (by simp)
      | plain _ hvariable =>
        rw [(hfits.local? _ _).mpr hvariable]
        rfl

/-- An assignment that is no redefinition. -/
theorem assign_findings_eq_nil_iff (returns? : Option TyForm) (hknows : Knows g.known types)
    (hfits : scope.Fits Γ) {a : Assignment} (hredef : a.isRedefinition g place = false) :
    (Stmt.assign a).findings w g place scope = [] ↔
      a.unknown g.records = [] ∧ a.value.WellUsed w Γ ∧
        ∀ ty e, Stmt.Expects types Γ returns? (.assign a) ty e → Conforms w Γ ty e := by
  rw [Stmt.findings, if_neg (by simp [hredef]), List.append_eq_nil_iff,
    Expr.findingsIn_eq_nil_iff hfits]
  simp only [bindingIn_ty?_iff returns? hknows hfits]
  refine and_congr_right fun _ => and_congr_right fun _ => ?_
  constructor
  · intro h ty e hexpects
    have hvalue : e = a.value := by cases hexpects <;> rfl
    subst hvalue
    exact h ty hexpects
  · intro h ty hexpects
    exact h ty a.value hexpects

/-- What the rules ask of one statement in its context. -/
structure Stmt.Sound (w : Widening) (types : String → Ty → Prop) (records : List RecordDecl)
    (Γ : Context) (returns? : Option TyForm) (stmt : Stmt) : Prop where
  annotation : ∀ a, stmt = .assign a → a.unknown records = []
  used : ∀ e, stmt.Evaluates e → e.WellUsed w Γ
  conforms : ∀ ty e, stmt.Expects types Γ returns? ty e → Conforms w Γ ty e

theorem sound_expr_iff {returns? : Option TyForm} {value : Expr} :
    (Stmt.expr value).Sound w types g.records Γ returns? ↔ value.WellUsed w Γ := by
  constructor
  · intro h
    exact h.used value (.expr value)
  · intro h
    refine ⟨fun _ ha => ?_, fun e he => ?_, fun _ _ hexpects => ?_⟩
    · exact nomatch ha
    · cases he
      exact h
    · exact nomatch hexpects

theorem sound_assign_iff {returns? : Option TyForm} {a : Assignment} :
    (Stmt.assign a).Sound w types g.records Γ returns? ↔
      a.unknown g.records = [] ∧ a.value.WellUsed w Γ ∧
        ∀ ty e, Stmt.Expects types Γ returns? (.assign a) ty e → Conforms w Γ ty e := by
  constructor
  · intro h
    exact ⟨h.annotation a rfl, h.used _ (.assign a), h.conforms⟩
  · intro h
    obtain ⟨hunknown, hused, hconforms⟩ := h
    refine ⟨fun b hb => ?_, fun e he => ?_, hconforms⟩
    · cases hb
      exact hunknown
    · cases he
      exact hused

/-- A `return` in a function: without a value, `None` is returned, which uses nothing. -/
theorem sound_ret_iff {returns : TyForm} {value? : Option Expr} {span : Span} :
    (Stmt.ret value? span).Sound w types g.records Γ (some returns) ↔
      (value?.getD (.scalar .none span)).WellUsed w Γ ∧
        ∀ ty, returns.Denotes types ty →
          Conforms w Γ ty (value?.getD (.scalar .none span)) := by
  constructor
  · intro h
    refine ⟨?_, fun ty hty => h.conforms ty _ (.ret rfl hty)⟩
    cases value? with
    | none => exact Expr.wellUsed_scalar .none span
    | some value => exact h.used value (.ret value span)
  · intro h
    obtain ⟨hused, hconforms⟩ := h
    refine ⟨fun _ ha => ?_, fun e he => ?_, fun ty e hexpects => ?_⟩
    · exact nomatch ha
    · cases he
      exact hused
    · cases hexpects with
      | ret hreturns hty =>
        cases hreturns
        exact hconforms ty hty

/-- Nothing is found in a statement of a body exactly if it is sound. -/
theorem findings_body_eq_nil_iff (hknows : Knows g.known types)
    (hfits : scope.Fits Γ) {returns : TyForm} {stmt : Stmt} :
    stmt.findings w g (.body (returns.denote? g.known)) scope = [] ↔
      stmt.Sound w types g.records Γ (some returns) := by
  cases stmt with
  | expr value => rw [Stmt.findings, Expr.findings_eq_nil_iff hfits, sound_expr_iff]
  | ret value? span =>
    rw [sound_ret_iff]
    simp only [← TyForm.denote?_iff hknows]
    exact Expr.findingsIn_eq_nil_iff hfits
  | assign a =>
    rw [sound_assign_iff]
    exact assign_findings_eq_nil_iff (some returns) hknows hfits rfl

/-- At the top level it must not be a `return`, either. -/
theorem findings_topLevel_eq_nil_iff (hknows : Knows g.known types)
    (hfits : scope.Fits Γ) {stmt : Stmt}
    (hredef : ∀ a, stmt = .assign a → g.declares a.target.name = false) :
    stmt.findings w g .topLevel scope = [] ↔
      (∀ value? span, stmt ≠ .ret value? span) ∧ stmt.Sound w types g.records Γ none := by
  cases stmt with
  | expr value =>
    rw [Stmt.findings, Expr.findings_eq_nil_iff hfits, sound_expr_iff]
    simp
  | ret value? span =>
    constructor
    · intro h
      exact absurd h (by simp [Stmt.findings])
    · intro h
      exact absurd rfl (h.1 value? span)
  | assign a =>
    have hplace : a.isRedefinition g .topLevel = false := hredef a rfl
    rw [sound_assign_iff, assign_findings_eq_nil_iff none hknows hfits hplace]
    simp

end Stmt

/-! ## The statements of a module -/

namespace Module

/-- A statement of a module, with its place and the scope in which it is reached. -/
inductive Reaches (m : Module) : Place → Scope → Stmt → Prop
  | topLevel {before after : List Stmt} {stmt : Stmt}
      (hsplit : m.statements = before ++ stmt :: after) :
      Reaches m .topLevel (scopeAfter m.globals .topLevel m.globals.scope.push before) stmt
  | body {decl : FunctionDecl} {before after : List Stmt} {stmt : Stmt} (hmem : decl ∈ m.functions)
      (hsplit : decl.body = before ++ stmt :: after) :
      Reaches m (.body (decl.returns.denote? m.globals.known))
        (scopeAfter m.globals (.body (decl.returns.denote? m.globals.known))
          (decl.bodyScope m.globals) before) stmt

/-- What is found on a module is found in its declarations or at a statement that is reached. -/
theorem mem_diagnostics_iff_reaches {m : Module} {d : Diagnostic} :
    d ∈ (check w m).diagnostics ↔ d ∈ m.globals.findings m ∨
      ∃ place scope stmt, m.Reaches place scope stmt ∧
        d ∈ stmt.findings w m.globals place scope := by
  rw [mem_diagnostics_iff, mem_findingsOfItems_iff]
  refine or_congr_right ⟨fun h => ?_, fun h => ?_⟩
  · rcases h with ⟨decl, hdecl, h⟩ | h
    · obtain ⟨before, stmt, after, hsplit, hd⟩ := mem_findingsOfBody_iff.mp h
      exact ⟨_, _, stmt, .body (mem_functions_iff_mem_items.mp hdecl) hsplit, hd⟩
    · obtain ⟨before, stmt, after, hsplit, hd⟩ := mem_findingsOfBody_iff.mp h
      exact ⟨_, _, stmt, .topLevel hsplit, hd⟩
  · obtain ⟨place, scope, stmt, hreaches, hd⟩ := h
    cases hreaches with
    | @topLevel before after _ hsplit =>
      exact Or.inr (mem_findingsOfBody_iff.mpr ⟨before, stmt, after, hsplit, hd⟩)
    | @body decl before after _ hmem hsplit =>
      exact Or.inl ⟨decl, mem_functions_iff_mem_items.mpr hmem,
        mem_findingsOfBody_iff.mpr ⟨before, stmt, after, hsplit, hd⟩⟩

/-- Up to a statement only variables are bound. -/
theorem Reaches.read_eq {m : Module} {β : Type} (read : Scope → β)
    (hbind : ∀ scope name binding, read (scope.bind name binding) = read scope) {place : Place}
    {stmt : Stmt} (h : m.Reaches place scope stmt) : read scope = read m.globals.scope.push := by
  have hleaves : ∀ place scope (stmt : Stmt),
      read (stmt.leaves m.globals place scope) = read scope := by
    intro place scope stmt
    cases stmt with
    | expr _ => rfl
    | ret _ _ => rfl
    | assign a =>
      rw [Stmt.leaves]
      split
      · rfl
      · exact hbind _ _ _
  cases h with
  | topLevel _ => exact read_foldl_eq read (hleaves _) _ _
  | body _ _ =>
    exact (read_foldl_eq read (hleaves _) _ _).trans
      (read_foldl_eq read (fun scope param => hbind scope _ _) _ _)

end Module

end Conform
