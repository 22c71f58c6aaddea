import Conform.Proofs.Statements

/-!
# The checker is right

**A module is clean if and only if it is well typed** (`clean_iff_wellTyped`), for every module and
every table of widening rules. The two sides share nothing but the syntax tree: one is a run of the
checker, the other the rules of `Proofs/WellTyped.lean`.

The proof goes through the declarations. If nothing is found about them, or if they keep their
rules, then every annotation denotes a type and the scopes of the walk fit the contexts of the rules
at every statement; after that the two sides can be compared statement by statement. So the
declarations are settled first, from both sides (`wellDeclared_of_clean`,
`WellDeclared.globals_findings`), and the statements in one equivalence under them
(`WellDeclared.findingsOfItems_eq_nil_iff`).
-/

namespace Conform

namespace Module

variable {w : Widening} {m : Module}

/-! ## What the rules for declarations give -/

namespace WellDeclared

variable (h : m.WellDeclared)

include h

theorem recordsInForce : m.recordsInForce = m.records :=
  recordsInForce_of_nodup h.distinct

theorem knows : Knows m.globals.known m.RecordTypes :=
  types_eq_recordTypes h.distinct ▸ m.knows_types

theorem refers {decl : RecordDecl} (hmem : decl ∈ m.records) {ident : Ident}
    (href : decl.RefersTo ident) : ∃ other ∈ m.records, other.name.name = ident.name := by
  rcases href with hbase | ⟨field, hfield, hmentions⟩
  · exact h.bases decl hmem ident hbase
  · exact h.annotations field.form (.field hmem hfield) ident hmentions

theorem resolvable : ∀ decl ∈ m.records, Resolvable m.records decl.name.name :=
  forall_resolvable_iff.mpr
    ⟨fun _ hmem _ href => h.refers hmem href, h.acyclic, h.fields⟩

theorem nodup_records : (m.records.map fun decl => decl.name.name).Nodup :=
  h.recordsInForce ▸ m.nodup_recordsInForce

/-- Every annotation denotes a type. -/
theorem denotes {form : TyForm} (hform : m.Annotates form) :
    ∃ ty, form.Denotes m.RecordTypes ty := by
  exact exists_denotes_of_resolvable h.nodup_records h.resolvable (h.annotations form hform)

theorem unknown_eq_nil {form : TyForm} (hform : m.Annotates form) :
    form.unknown m.recordsInForce = [] := by
  rw [TyForm.unknown_eq_nil_iff, h.recordsInForce]
  exact h.annotations form hform

theorem identNamed?_eq_none {a : Assignment} (hmem : .assign a ∈ m.statements) :
    identNamed? m.declared a.target.name = none :=
  identNamed?_eq_none_iff.mpr (h.undeclared a hmem)

theorem declares_eq_false {a : Assignment} (hmem : .assign a ∈ m.statements) :
    m.globals.declares a.target.name = false := by
  show (identNamed? m.declared a.target.name).isSome = false
  rw [h.identNamed?_eq_none hmem]
  rfl

/-- The scope at a top-level statement fits its context. -/
theorem fits_topLevel {before rest : List Stmt} (hsplit : m.statements = before ++ rest) :
    (scopeAfter m.globals .topLevel m.globals.scope.push before).Fits
      (m.context.after m.RecordTypes before) := by
  have hmem : ∀ stmt, stmt ∈ before → stmt ∈ m.statements := fun stmt hstmt => by
    rw [hsplit]
    exact List.mem_append_left _ hstmt
  have hfits := fits_globals h.distinct
  refine fits_scopeAfter h.knows ⟨hfits.local?, hfits.function?, hfits.declared⟩ ?_ ?_
  · intro a form ha hform
    exact h.denotes (.assignment (hmem _ ha) hform)
  · intro a ha
    exact h.declares_eq_false (hmem _ ha)

/-- The scope at a statement of a body fits its context. -/
theorem fits_body {decl : FunctionDecl} (hdecl : decl ∈ m.functions) {before rest : List Stmt}
    (hsplit : decl.body = before ++ rest) (returns? : Option Ty) :
    (scopeAfter m.globals (.body returns?) (decl.bodyScope m.globals) before).Fits
      ((decl.context m.RecordTypes m.context).after m.RecordTypes before) := by
  have hmem : ∀ stmt, stmt ∈ before → stmt ∈ decl.body := fun stmt hstmt => by
    rw [hsplit]
    exact List.mem_append_left _ hstmt
  have hfits := fits_globals h.distinct
  have hstart : (decl.bodyScope m.globals).Fits (decl.context m.RecordTypes m.context) := by
    refine fits_bodyScope h.knows ⟨hfits.local?, hfits.function?, hfits.declared⟩
      (h.params decl hdecl) fun param hparam => ?_
    exact h.denotes (.function hdecl (Or.inl ⟨param, hparam, rfl⟩))
  refine fits_scopeAfter h.knows hstart ?_ fun a ha => rfl
  intro a form ha hform
  exact h.denotes (.body hdecl (hmem _ ha) hform)

end WellDeclared

/-! ## Findings on declarations -/

/-- Nothing is found about declarations that keep their rules. -/
theorem WellDeclared.globals_findings (h : m.WellDeclared) : m.globals.findings m = [] := by
  rw [globals_findings_eq_nil_iff, Module.redefinitions_eq_nil_iff,
    Resolution.reports_all_eq_nil_iff m.nodup_recordsInForce, functionsInForce_of_nodup h.distinct]
  refine ⟨h.distinct, ?_, fun decl hmem => ?_, fun decl hmem => ?_, fun a hmem => ?_⟩
  · rw [h.recordsInForce]
    exact h.resolvable
  · exact FunctionDecl.unknown_eq_nil_iff.mpr fun form hform =>
      h.unknown_eq_nil (.function hmem hform)
  · have hparams : ∀ param ∈ decl.params, ∃ ty, param.form.Denotes m.RecordTypes ty :=
      fun param hparam => h.denotes (.function hmem (Or.inl ⟨param, hparam, rfl⟩))
    have hreturns := h.denotes (.function hmem (Or.inr rfl))
    exact (FunctionDecl.malformed_eq_nil_iff h.knows hparams hreturns).mpr (h.params decl hmem)
  · have hassign := mem_assignments_iff.mp hmem
    refine Assignment.globalFindings_eq_nil_iff.mpr ⟨h.identNamed?_eq_none hassign, ?_⟩
    exact Assignment.unknown_eq_nil_iff.mpr fun form hform =>
      h.unknown_eq_nil (.assignment hassign hform)

/-- Nothing is found in a body only if the annotations in it are of records. -/
theorem unknown_of_body {g : Globals} {returns? : Option Ty} {scope : Scope} {stmts : List Stmt}
    (h : findingsOfBody w g (.body returns?) scope stmts = []) {a : Assignment}
    (ha : .assign a ∈ stmts) : a.unknown g.records = [] := by
  obtain ⟨before, after, hsplit⟩ := List.append_of_mem ha
  have hstmt := findingsOfBody_eq_nil_iff.mp h before (.assign a) after hsplit
  rw [Stmt.findings, if_neg (by simp [Assignment.isRedefinition]), List.append_eq_nil_iff] at hstmt
  exact hstmt.1

/-- In a clean module every annotation mentions records only. -/
theorem mentions_of_clean (hglobals : m.globals.findings m = [])
    (hitems : findingsOfItems w m.globals m.globals.scope.push m.items = []) {form : TyForm}
    (hform : m.Annotates form) :
    ∀ ident, form.Mentions ident → ∃ decl ∈ m.recordsInForce, decl.name.name = ident.name := by
  obtain ⟨hredef, hreports, hunknown, _, hassign⟩ := globals_findings_eq_nil_iff.mp hglobals
  rw [Resolution.reports_all_eq_nil_iff m.nodup_recordsInForce] at hreports
  obtain ⟨hrefers, _⟩ := forall_resolvable_iff.mp hreports
  -- Fields are judged by the search through the records, the other annotations where they stand.
  cases hform with
  | field hmem hfield =>
    rw [← recordsInForce_of_nodup (redefinitions_eq_nil_iff.mp hredef)] at hmem
    exact fun ident hident => hrefers _ hmem ident (Or.inr ⟨_, hfield, hident⟩)
  | function hmem hform =>
    have hfunction := FunctionDecl.unknown_eq_nil_iff.mp (hunknown _ hmem)
    exact TyForm.unknown_eq_nil_iff.mp (hfunction _ hform)
  | assignment hmem hform =>
    have ha := Assignment.globalFindings_eq_nil_iff.mp (hassign _ (mem_assignments_iff.mpr hmem))
    exact TyForm.unknown_eq_nil_iff.mp (Assignment.unknown_eq_nil_iff.mp ha.2 _ hform)
  | body hmem ha hform =>
    obtain ⟨hbodies, _⟩ := findingsOfItems_eq_nil_iff.mp hitems
    have hbody := unknown_of_body (hbodies _ (mem_functions_iff_mem_items.mpr hmem)) ha
    exact TyForm.unknown_eq_nil_iff.mp (Assignment.unknown_eq_nil_iff.mp hbody _ hform)

/-- The declarations of a clean module keep their rules. -/
theorem wellDeclared_of_clean (hglobals : m.globals.findings m = [])
    (hitems : findingsOfItems w m.globals m.globals.scope.push m.items = []) :
    m.WellDeclared := by
  obtain ⟨hredef, hreports, _, hmalformed, hassign⟩ := globals_findings_eq_nil_iff.mp hglobals
  have hdistinct := redefinitions_eq_nil_iff.mp hredef
  have hrecords := recordsInForce_of_nodup hdistinct
  have hnodup := m.nodup_recordsInForce
  rw [Resolution.reports_all_eq_nil_iff hnodup] at hreports
  rw [functionsInForce_of_nodup hdistinct] at hmalformed
  rw [hrecords] at hnodup hreports hassign
  obtain ⟨hrefers, hacyclic, hfields⟩ := forall_resolvable_iff.mp hreports
  have hannotations : ∀ form, m.Annotates form → ∀ ident, form.Mentions ident →
      ∃ decl ∈ m.records, decl.name.name = ident.name := by
    intro form hform
    rw [← hrecords]
    exact mentions_of_clean hglobals hitems hform
  have hdenotes : ∀ form, m.Annotates form → ∃ ty, form.Denotes m.RecordTypes ty :=
    fun form hform => exists_denotes_of_resolvable hnodup hreports (hannotations form hform)
  refine ⟨hdistinct, fun a ha => ?_, fun decl hmem base hbase => ?_, hannotations, hacyclic,
    hfields, fun decl hmem => ?_⟩
  · have ha := Assignment.globalFindings_eq_nil_iff.mp (hassign a (mem_assignments_iff.mpr ha))
    exact identNamed?_eq_none_iff.mp ha.1
  · exact hrefers decl hmem base (Or.inl hbase)
  · have hparams : ∀ param ∈ decl.params, ∃ ty, param.form.Denotes m.RecordTypes ty :=
      fun param hparam => hdenotes _ (.function hmem (Or.inl ⟨param, hparam, rfl⟩))
    have hreturns := hdenotes _ (.function hmem (Or.inr rfl))
    have hknows : Knows m.globals.known m.RecordTypes :=
      types_eq_recordTypes hdistinct ▸ m.knows_types
    exact (FunctionDecl.malformed_eq_nil_iff hknows hparams hreturns).mp (hmalformed decl hmem)

/-! ## Findings on statements -/

theorem WellDeclared.annotation (h : m.WellDeclared) {stmt : Stmt}
    (hannotates : ∀ a form, stmt = .assign a → a.form = some form → m.Annotates form) :
    ∀ a, stmt = .assign a → a.unknown m.recordsInForce = [] :=
  fun a ha => Assignment.unknown_eq_nil_iff.mpr fun _ hform =>
    h.unknown_eq_nil (hannotates a _ ha hform)

/-- Under the rules for declarations a top-level statement is sound in its context exactly if
nothing is found in it. -/
theorem WellDeclared.topLevel_iff (h : m.WellDeclared) {before after : List Stmt} {stmt : Stmt}
    (hsplit : m.statements = before ++ stmt :: after) :
    stmt.findings w m.globals .topLevel
        (scopeAfter m.globals .topLevel m.globals.scope.push before) = [] ↔
      (∀ value? span, stmt ≠ .ret value? span) ∧
        stmt.Sound w m.RecordTypes m.recordsInForce (m.context.after m.RecordTypes before)
          none := by
  refine findings_topLevel_eq_nil_iff h.knows (h.fits_topLevel hsplit) fun a ha => ?_
  subst ha
  exact h.declares_eq_false (by rw [hsplit]; simp)

theorem WellDeclared.body_iff (h : m.WellDeclared) {decl : FunctionDecl}
    (hdecl : decl ∈ m.functions) {before after : List Stmt} {stmt : Stmt}
    (hsplit : decl.body = before ++ stmt :: after) :
    stmt.findings w m.globals (.body (decl.returns.denote? m.globals.known))
        (scopeAfter m.globals (.body (decl.returns.denote? m.globals.known))
          (decl.bodyScope m.globals) before) = [] ↔
      stmt.Sound w m.RecordTypes m.recordsInForce
        ((decl.context m.RecordTypes m.context).after m.RecordTypes before) (some decl.returns) :=
  findings_body_eq_nil_iff h.knows (h.fits_body hdecl hsplit _)

/-- Under the rules for declarations nothing is found in the statements of a module exactly if they
keep theirs. -/
theorem WellDeclared.findingsOfItems_eq_nil_iff (h : m.WellDeclared) :
    findingsOfItems w m.globals m.globals.scope.push m.items = [] ↔
      (∀ value? span, .ret value? span ∉ m.statements) ∧
      (∀ Γ returns? stmt e, m.Site Γ returns? stmt → stmt.Evaluates e → e.WellUsed w Γ) ∧
      ∀ Γ returns? stmt ty e, m.Site Γ returns? stmt →
        stmt.Expects m.RecordTypes Γ returns? ty e → Conforms w Γ ty e := by
  rw [Conform.findingsOfItems_eq_nil_iff]
  constructor
  · intro hnil
    obtain ⟨hbodies, htop⟩ := hnil
    -- Every site is reached by one of the walks, in the scope that fits its context.
    have htop' := fun before stmt after hsplit =>
      (h.topLevel_iff hsplit).mp (findingsOfBody_eq_nil_iff.mp htop before stmt after hsplit)
    have hsound : ∀ Γ returns? stmt, m.Site Γ returns? stmt →
        stmt.Sound w m.RecordTypes m.recordsInForce Γ returns? := by
      intro Γ returns? stmt hsite
      cases hsite with
      | topLevel hsplit => exact (htop' _ _ _ hsplit).2
      | body hmem hsplit =>
        have hbody := hbodies _ (mem_functions_iff_mem_items.mpr hmem)
        exact (h.body_iff hmem hsplit).mp (findingsOfBody_eq_nil_iff.mp hbody _ _ _ hsplit)
    refine ⟨fun value? span hmem => ?_, fun Γ returns? stmt e hsite => ?_,
      fun Γ returns? stmt ty e hsite => ?_⟩
    · obtain ⟨before, after, hsplit⟩ := List.append_of_mem hmem
      exact (htop' _ _ _ hsplit).1 value? span rfl
    · exact (hsound Γ returns? stmt hsite).used e
    · exact (hsound Γ returns? stmt hsite).conforms ty e
  · intro hrules
    obtain ⟨hreturn, hused, hconforms⟩ := hrules
    refine ⟨fun decl hmem => ?_, findingsOfBody_eq_nil_iff.mpr fun before stmt after hsplit => ?_⟩
    · have hdecl := mem_functions_iff_mem_items.mp hmem
      refine findingsOfBody_eq_nil_iff.mpr fun before stmt after hsplit => ?_
      have hsite := Module.Site.body hdecl hsplit
      refine (h.body_iff hdecl hsplit).mpr ⟨h.annotation fun a form ha hform => ?_,
        fun e => hused _ _ _ e hsite, fun ty e => hconforms _ _ _ ty e hsite⟩
      exact .body hdecl (by rw [hsplit, ha]; simp) hform
    · have hstatements : m.statements = before ++ stmt :: after := hsplit
      have hsite := Module.Site.topLevel hstatements
      refine (h.topLevel_iff hstatements).mpr ⟨fun value? span hret => ?_,
        h.annotation fun a form ha hform => ?_, fun e => hused _ _ _ e hsite,
        fun ty e => hconforms _ _ _ ty e hsite⟩
      · exact hreturn value? span (by rw [hstatements, hret]; simp)
      · exact .assignment (by rw [hstatements, ha]; simp) hform

/-- Nothing is found on a module exactly if it is well typed. -/
theorem clean_iff_wellTyped (w : Widening) (m : Module) :
    (check w m).diagnostics = [] ↔ m.WellTyped w := by
  have hsplit : (check w m).diagnostics = [] ↔ m.globals.findings m = [] ∧
      findingsOfItems w m.globals m.globals.scope.push m.items = [] := by
    simp only [List.eq_nil_iff_forall_not_mem, mem_diagnostics_iff, not_or, forall_and]
  rw [hsplit]
  constructor
  · intro hclean
    obtain ⟨hglobals, hitems⟩ := hclean
    have h := wellDeclared_of_clean hglobals hitems
    obtain ⟨hreturn, hused, hconforms⟩ := h.findingsOfItems_eq_nil_iff.mp hitems
    exact ⟨h, hreturn, hused, hconforms⟩
  · intro hwell
    have h := hwell.toWellDeclared
    exact ⟨h.globals_findings, h.findingsOfItems_eq_nil_iff.mpr
      ⟨hwell.noReturn, hwell.used, hwell.conforms⟩⟩

end Module

end Conform
