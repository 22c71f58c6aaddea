import Conform.Proofs.Statements

/-!
# Modules followed by further statements

An expression or a `return` at the end of a module declares nothing and binds nothing. The
declarations of the module stay what they are, so everything that was found before is found again
in the same order, and the added statements start in the scope that the module leaves
(`findings_followedBy`). They leave that scope as it is: the same statements once more start in it
too, find the same, and **say nothing that has not been said** (`check_followedBy`).

Assignments are left out. They declare variables and bind what the statements after them see, so
the same assignments once more may be at fault where they were not before.
-/

namespace Conform

variable {w : Widening}

/-! ## Findings that come later -/

/-- What is kept of some findings comes first in what is kept of them and later ones. -/
theorem eraseDups_prefix_append (ds later : List Diagnostic) :
    ds.eraseDups <+: (ds ++ later).eraseDups := by
  rw [List.eraseDups_append]
  exact List.prefix_append _ _

/-- Later findings that have all been made before are all dropped. -/
theorem eraseDups_append_of_subset {ds later : List Diagnostic} (h : later ⊆ ds) :
    (ds ++ later).eraseDups = ds.eraseDups := by
  have hnone : later.removeAll ds = [] := by
    rw [List.removeAll, List.filter_eq_nil_iff]
    intro d hd
    simpa using h hd
  rw [List.eraseDups_append, hnone, List.eraseDups_nil, List.append_nil]

/-! ## Statements that bind nothing -/

/-- An expression or a `return`. -/
inductive Stmt.BindsNothing : Stmt → Prop
  | expr (value : Expr) : BindsNothing (.expr value)
  | ret (value? : Option Expr) (span : Span) : BindsNothing (.ret value? span)

theorem Stmt.BindsNothing.leaves_eq {stmt : Stmt} (h : stmt.BindsNothing) (g : Globals)
    (place : Place) (scope : Scope) : stmt.leaves g place scope = scope := by
  cases h <;> rfl

theorem scopeAfter_of_bindsNothing {stmts : List Stmt} (h : ∀ stmt ∈ stmts, stmt.BindsNothing)
    (g : Globals) (place : Place) (scope : Scope) : scopeAfter g place scope stmts = scope := by
  induction stmts with
  | nil => rfl
  | cons stmt rest ih =>
    have hrest := ih fun other hother => h other (List.mem_cons_of_mem _ hother)
    rw [scopeAfter, List.foldl_cons, (h stmt List.mem_cons_self).leaves_eq]
    exact hrest

/-! ## Declarations of the longer module -/

/-- A module with further statements at its end. -/
def Module.followedBy (m : Module) (stmts : List Stmt) : Module :=
  ⟨m.items ++ stmts.map .stmt⟩

/-- Statements rank alone, wherever they stand, and change the rank of nothing. -/
theorem rank_append_statements (taken : List Ident) (items : List Item) (stmts : List Stmt) :
    rank taken (items ++ stmts.map .stmt) =
      rank taken items ++ stmts.map fun stmt => (.stmt stmt, none) := by
  induction items generalizing taken with
  | nil =>
    induction stmts with
    | nil => rfl
    | cons stmt rest ih => exact congrArg ((Item.stmt stmt, none) :: ·) ih
  | cons item items ih =>
    rw [List.cons_append, rank_cons, rank_cons, ih, List.cons_append]

namespace Module

variable {m : Module} {stmts : List Stmt}

theorem declared_followedBy (m : Module) (stmts : List Stmt) :
    (m.followedBy stmts).declared = m.declared := by
  simp [declared, followedBy, List.filterMap_map, Function.comp_def, Item.declared?]

theorem redefinitions_followedBy (m : Module) (stmts : List Stmt) :
    (m.followedBy stmts).redefinitions = m.redefinitions := by
  simp [redefinitions, ranked, followedBy, rank_append_statements, List.filterMap_map,
    Item.declared?]

theorem recordsInForce_followedBy (m : Module) (stmts : List Stmt) :
    (m.followedBy stmts).recordsInForce = m.recordsInForce := by
  simp [recordsInForce, ranked, followedBy, rank_append_statements, List.filterMap_map]

theorem functionsRanked_followedBy (m : Module) (stmts : List Stmt) :
    (m.followedBy stmts).functionsRanked = m.functionsRanked := by
  simp [functionsRanked, ranked, followedBy, rank_append_statements, List.filterMap_map]

theorem statements_followedBy (m : Module) (stmts : List Stmt) :
    (m.followedBy stmts).statements = m.statements ++ stmts := by
  simp [statements, followedBy, List.filterMap_map, Function.comp_def, Item.stmt?]

theorem assignments_followedBy (h : ∀ stmt ∈ stmts, stmt.BindsNothing) :
    (m.followedBy stmts).assignments = m.assignments := by
  rw [assignments_eq, assignments_eq, statements_followedBy, List.filterMap_append,
    List.append_right_eq_self, List.filterMap_eq_nil_iff]
  intro stmt hmem
  cases h stmt hmem <;> rfl

theorem globals_followedBy (h : ∀ stmt ∈ stmts, stmt.BindsNothing) :
    (m.followedBy stmts).globals = m.globals := by
  unfold globals
  rw [declared_followedBy, recordsInForce_followedBy, functionsRanked_followedBy,
    assignments_followedBy h]

theorem globals_findings_followedBy (h : ∀ stmt ∈ stmts, stmt.BindsNothing) (g : Globals) :
    g.findings (m.followedBy stmts) = g.findings m := by
  unfold Globals.findings
  rw [redefinitions_followedBy, functionsRanked_followedBy, assignments_followedBy h]

end Module

/-! ## Findings on the longer module -/

/-- Items after some others start in the scope that the statements among those leave. -/
theorem findingsOfItems_append (g : Globals) (scope : Scope) (items rest : List Item) :
    findingsOfItems w g scope (items ++ rest) = findingsOfItems w g scope items ++
      findingsOfItems w g (scopeAfter g .topLevel scope (items.filterMap Item.stmt?)) rest := by
  induction items generalizing scope with
  | nil => rfl
  | cons item items ih =>
    cases item with
    | function decl =>
      rw [List.cons_append, findingsOfItems, findingsOfItems, ih, List.append_assoc]
      rfl
    | record decl =>
      rw [List.cons_append, findingsOfItems, findingsOfItems, ih]
      rfl
    | stmt stmt =>
      rw [List.cons_append, findingsOfItems, findingsOfItems, ih, List.append_assoc]
      rfl

theorem findingsOfItems_statements (g : Globals) (scope : Scope) (stmts : List Stmt) :
    findingsOfItems w g scope (stmts.map .stmt) = findingsOfBody w g .topLevel scope stmts := by
  induction stmts generalizing scope with
  | nil => rfl
  | cons stmt rest ih => rw [List.map_cons, findingsOfItems, findingsOfBody, ih]

namespace Module

/-- The scope in which a statement at the end of a module starts. -/
def finalScope (m : Module) : Scope :=
  scopeAfter m.globals .topLevel m.globals.scope.push m.statements

variable {m : Module} {stmts : List Stmt}

theorem finalScope_followedBy (h : ∀ stmt ∈ stmts, stmt.BindsNothing) :
    (m.followedBy stmts).finalScope = m.finalScope := by
  unfold finalScope
  rw [globals_followedBy h, statements_followedBy, scopeAfter, List.foldl_append]
  exact scopeAfter_of_bindsNothing h _ _ _

/-- Everything is found that is found without the added statements, and then what is found in
these. -/
theorem findings_followedBy (h : ∀ stmt ∈ stmts, stmt.BindsNothing) :
    (m.followedBy stmts).findings w (m.followedBy stmts).globals = m.findings w m.globals ++
      findingsOfBody w m.globals .topLevel m.finalScope stmts := by
  rw [globals_followedBy h]
  unfold findings
  rw [globals_findings_followedBy h, followedBy, findingsOfItems_append,
    findingsOfItems_statements, List.append_assoc]
  rfl

/-- No finding is made twice. Statements that bind nothing, added to a module, leave its scope and
its findings as they are and add theirs behind them; added once more, they add nothing. -/
theorem check_followedBy (w : Widening) (m : Module) {stmts : List Stmt}
    (h : ∀ stmt ∈ stmts, stmt.BindsNothing) :
    (check w m).diagnostics.Nodup ∧
      (check w (m.followedBy stmts)).scope = (check w m).scope ∧
      (check w m).diagnostics <+: (check w (m.followedBy stmts)).diagnostics ∧
      check w ((m.followedBy stmts).followedBy stmts) = check w (m.followedBy stmts) := by
  have hscope : ∀ m : Module, (check w (m.followedBy stmts)).scope = (check w m).scope :=
    fun m => congrArg Globals.scope (globals_followedBy h)
  have hdiagnostics : ∀ m : Module, (check w (m.followedBy stmts)).diagnostics =
      (m.findings w m.globals ++
        findingsOfBody w m.globals .topLevel m.finalScope stmts).eraseDups :=
    fun m => congrArg List.eraseDups (findings_followedBy h)
  refine ⟨nodup_diagnostics w m, hscope m, ?_, ?_⟩
  · rw [hdiagnostics]
    exact eraseDups_prefix_append _ _
  · -- The second time the statements start where they started the first time.
    have hagain : findingsOfBody w (m.followedBy stmts).globals .topLevel
        (m.followedBy stmts).finalScope stmts ⊆
          (m.followedBy stmts).findings w (m.followedBy stmts).globals := by
      rw [findings_followedBy h, globals_followedBy h, finalScope_followedBy h]
      exact List.subset_append_right _ _
    have hsame : (check w ((m.followedBy stmts).followedBy stmts)).diagnostics =
        (check w (m.followedBy stmts)).diagnostics := by
      rw [hdiagnostics]
      exact eraseDups_append_of_subset hagain
    exact congrArg₂ Outcome.mk hsame (hscope _)

/-- A module that uses a name that means nothing. -/
def unfinished : Module :=
  ⟨[.stmt (.expr (.name ⟨"x", ⟨0, 1⟩⟩))]⟩

/-- Uses of names that mean nothing, one of them in a place that the module has used already. -/
def afterthoughts : List Stmt :=
  [.ret (some (.name ⟨"x", ⟨0, 1⟩⟩)) ⟨2, 3⟩, .expr (.call ⟨"f", ⟨4, 5⟩⟩ [] ⟨4, 7⟩)]

/-- Two findings are new, both of them only once. -/
theorem check_followedBy_afterthoughts :
    (∀ stmt ∈ afterthoughts, stmt.BindsNothing) ∧
      (check .empty unfinished).diagnostics = [.undefinedName "x" ⟨0, 1⟩] ∧
      (check .empty (unfinished.followedBy afterthoughts)).diagnostics =
        [.undefinedName "x" ⟨0, 1⟩, .returnOutsideFunction ⟨2, 3⟩, .unknownCallable "f" ⟨4, 5⟩] ∧
      check .empty ((unfinished.followedBy afterthoughts).followedBy afterthoughts) =
        check .empty (unfinished.followedBy afterthoughts) := by
  have hbinds : ∀ stmt ∈ afterthoughts, stmt.BindsNothing := by
    intro stmt hmem
    rcases List.mem_pair.mp hmem with rfl | rfl
    · exact .ret _ _
    · exact .expr _
  obtain ⟨_, _, _, hagain⟩ := check_followedBy .empty unfinished hbinds
  exact ⟨hbinds, by decide +kernel, by decide +kernel, hagain⟩

end Module

end Conform
