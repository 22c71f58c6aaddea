import Conform.Command.Check
import Conform.Proofs.Registered

/-!
# No failure is silent

When a declaration fails, what depends on it goes on with less: a record settles without a type, a
name is poisoned, a variable stays untyped. After that everything about it is accepted, so the
failure has to be on record somewhere. This file finds the report behind each such state of the
global scope (`Failure`).

The chain is the same every time. An annotation that denotes nothing mentions a name without a type
(`exists_denotes_iff`). If no record has that name, the annotation itself was reported. If one has
it, that record is not resolvable, and then the search through the records has reported something —
not always about that record, since a record that only refers to a failed one settles silently.

**A clean module is therefore complete** (`failure_is_reported`): nothing is poisoned, the scope
holds as many records and functions as the module declares, which are the numbers that the command
prints, and every annotated variable has the type of its first annotation.
-/

namespace Conform

/-- Whether a finding is about a declaration that failed. -/
def Diagnostic.isFailure : Diagnostic → Bool
  | .unknownType .. => true
  | .recursiveRecord .. => true
  | .malformedType .. => true
  | .duplicateDefinition .. => true
  | _ => false

namespace Module

/-- A declaration of a module that has failed, as the scope shows it. -/
inductive Failure (m : Module) (scope : Scope) : Prop
  | poisoned {name : String} (h : scope.isPoisoned name = true)
  | record {decl : RecordDecl} (hmem : decl ∈ m.records) (h : scope.record? decl.name.name = none)
  | function {decl : FunctionDecl} (hmem : decl ∈ m.functions)
      (h : scope.function? decl.name.name = none)
  | untyped {a : Assignment} (hmem : a ∈ m.assignments) (hform : a.form.isSome = true)
      (hfree : ∀ ident ∈ m.declared, ident.name ≠ a.target.name)
      (h : scope.local? a.target.name = some .untyped)

variable {w : Widening} {m : Module}

/-- Something about a failed declaration has been reported. -/
def ReportsFailure (w : Widening) (m : Module) : Prop :=
  ∃ d ∈ (check w m).diagnostics, d.isFailure = true

/-! ## Where a report goes -/

section Findings

variable {d : Diagnostic}

theorem mem_diagnostics_of_redefinition (hd : d ∈ m.redefinitions) : d ∈ (check w m).diagnostics :=
  mem_diagnostics_iff.mpr (Or.inl (mem_globals_findings_iff.mpr (Or.inl hd)))

theorem mem_diagnostics_of_search (hd : d ∈ (Resolution.all m.recordsInForce).reports) :
    d ∈ (check w m).diagnostics :=
  mem_diagnostics_iff.mpr (Or.inl (mem_globals_findings_iff.mpr (Or.inr (Or.inl hd))))

theorem mem_diagnostics_of_annotates {decl : FunctionDecl} (hmem : decl ∈ m.functions)
    {form : TyForm} (hform : decl.Annotates form) (hd : d ∈ form.unknown m.recordsInForce) :
    d ∈ (check w m).diagnostics := by
  have hdecl := FunctionDecl.mem_unknown_iff.mpr ⟨form, hform, hd⟩
  exact mem_diagnostics_iff.mpr (Or.inl (mem_globals_findings_iff.mpr
    (Or.inr (Or.inr (Or.inl ⟨decl, hmem, hdecl⟩)))))

theorem mem_diagnostics_of_malformed {decl : FunctionDecl} (hmem : decl ∈ m.functionsInForce)
    (hd : d ∈ decl.malformed m.globals.known) : d ∈ (check w m).diagnostics :=
  mem_diagnostics_iff.mpr (Or.inl (mem_globals_findings_iff.mpr
    (Or.inr (Or.inr (Or.inr (Or.inl ⟨decl, hmem, hd⟩))))))

theorem mem_diagnostics_of_assignment {a : Assignment} (hmem : a ∈ m.assignments)
    (hd : d ∈ a.globalFindings m.recordsInForce m.declared) : d ∈ (check w m).diagnostics :=
  mem_diagnostics_iff.mpr (Or.inl (mem_globals_findings_iff.mpr
    (Or.inr (Or.inr (Or.inr (Or.inr ⟨a, hmem, hd⟩))))))

end Findings

/-! ## From a failure to its report -/

/-- A record in force without a type: the search has reported something. -/
theorem reportsFailure_of_no_type {decl : RecordDecl} (hmem : decl ∈ m.recordsInForce)
    (h : ∀ ty, ¬ m.Types decl.name.name ty) : ReportsFailure w m := by
  have hne : (Resolution.all m.recordsInForce).reports ≠ [] := by
    intro hquiet
    have hres := (Resolution.reports_all_eq_nil_iff m.nodup_recordsInForce).mp hquiet decl hmem
    obtain ⟨ty, hty⟩ := exists_types_iff.mpr hres
    exact h ty hty
  obtain ⟨d, hd⟩ := List.exists_mem_of_ne_nil _ hne
  obtain ⟨hrun, _⟩ := Resolution.all_reached m.recordsInForce
  refine ⟨d, mem_diagnostics_of_search hd, ?_⟩
  cases Resolution.justified_of_mem_reports hrun hd with
  | unknown => rfl
  | recursive => rfl
  | malformed => rfl

/-- An annotation that denotes nothing, if its unknown names are reported. -/
theorem reportsFailure_of_not_denotes {form : TyForm}
    (hunknown : ∀ d ∈ form.unknown m.recordsInForce, d ∈ (check w m).diagnostics)
    (h : ∀ ty, ¬ form.Denotes m.Types ty) : ReportsFailure w m := by
  have hname : ∃ ref, form.Mentions ref ∧ ∀ ty, ¬ m.Types ref.name ty := by
    by_contra hnone
    have hall : ∀ ref, form.Mentions ref → ∃ ty, m.Types ref.name ty := by
      intro ref href
      by_contra hty
      exact hnone ⟨ref, href, fun ty h => hty ⟨ty, h⟩⟩
    obtain ⟨ty, hty⟩ := TyForm.exists_denotes_iff.mpr hall
    exact h ty hty
  obtain ⟨ref, href, hty⟩ := hname
  -- A name of no record is reported where it stands, a record without a type by the search.
  cases hdecl : recordNamed? m.recordsInForce ref.name with
  | none => exact ⟨_, hunknown _ (TyForm.mem_unknown_iff.mpr ⟨ref, href, hdecl, rfl⟩), rfl⟩
  | some decl =>
    obtain ⟨hmem, hname⟩ := mem_of_recordNamed? hdecl
    exact reportsFailure_of_no_type hmem (hname ▸ hty)

/-- A function in force without a signature. -/
theorem reportsFailure_of_no_signature {decl : FunctionDecl} (hmem : decl ∈ m.functionsInForce)
    (h : ∀ signature, ¬ decl.HasSignature m.Types signature) : ReportsFailure w m := by
  have hmem' : decl ∈ m.functions :=
    mem_functions_iff.mpr ⟨true, mem_functionsInForce_iff_ranked.mp hmem⟩
  by_cases hparams : ∀ param ∈ decl.params, ∃ ty, param.form.Denotes m.Types ty
  · by_cases hreturns : ∃ ty, decl.returns.Denotes m.Types ty
    · -- Every annotation denotes a type, so it is the names of the parameters that repeat.
      have hrepeat : ¬ (decl.params.map fun param => param.name.name).Nodup := by
        intro hdistinct
        obtain ⟨signature, hsig⟩ := FunctionDecl.exists_hasSignature hparams hreturns hdistinct
        exact h signature hsig
      have hne : decl.malformed m.globals.known ≠ [] :=
        mt (FunctionDecl.malformed_eq_nil_iff m.knows_types hparams hreturns).mp hrepeat
      obtain ⟨d, hd⟩ := List.exists_mem_of_ne_nil _ hne
      obtain ⟨cause, rfl⟩ := FunctionDecl.exists_of_mem_malformed hd
      exact ⟨_, mem_diagnostics_of_malformed hmem hd, rfl⟩
    · exact reportsFailure_of_not_denotes
        (fun d hd => mem_diagnostics_of_annotates hmem' (Or.inr rfl) hd)
        fun ty hty => hreturns ⟨ty, hty⟩
  · simp only [not_forall] at hparams
    obtain ⟨param, hparam, hnone⟩ := hparams
    exact reportsFailure_of_not_denotes
      (fun d hd => mem_diagnostics_of_annotates hmem' (Or.inl ⟨param, hparam, rfl⟩) hd)
      fun ty hty => hnone ⟨ty, hty⟩

/-- A name that is declared twice. -/
theorem reportsFailure_of_redefinition (h : m.redefinitions ≠ []) : ReportsFailure w m := by
  obtain ⟨d, hd⟩ := List.exists_mem_of_ne_nil _ h
  refine ⟨d, mem_diagnostics_of_redefinition hd, ?_⟩
  obtain ⟨_, _, _, rfl⟩ := exists_of_mem_redefinitions hd
  rfl

/-- A record that is not found: its own declaration failed, or another one has its name. -/
theorem reportsFailure_of_record {decl : RecordDecl} (hmem : decl ∈ m.records)
    (h : m.globals.scope.record? decl.name.name = none) : ReportsFailure w m := by
  by_cases hredef : m.redefinitions = []
  · rw [← recordsInForce_of_nodup (redefinitions_eq_nil_iff.mp hredef)] at hmem
    refine reportsFailure_of_no_type hmem fun ty hty => ?_
    obtain ⟨entry, hentry, _⟩ := registers_iff.mpr hty
    rw [h] at hentry
    exact absurd hentry (by simp)
  · exact reportsFailure_of_redefinition hredef

theorem reportsFailure_of_function {decl : FunctionDecl} (hmem : decl ∈ m.functions)
    (h : m.globals.scope.function? decl.name.name = none) : ReportsFailure w m := by
  by_cases hredef : m.redefinitions = []
  · rw [← functionsInForce_of_nodup (redefinitions_eq_nil_iff.mp hredef)] at hmem
    refine reportsFailure_of_no_signature hmem fun signature hsig => ?_
    have hentry : m.globals.scope.function? decl.name.name = some ⟨signature, decl.span⟩ :=
      function?_globals_iff.mpr ⟨decl, hmem, rfl, hsig, rfl⟩
    rw [h] at hentry
    exact absurd hentry (by simp)
  · exact reportsFailure_of_redefinition hredef

/-- An annotation of a variable that denotes nothing. -/
theorem reportsFailure_of_assignment {a : Assignment} (hmem : a ∈ m.assignments) {form : TyForm}
    (hform : a.form = some form) (hfree : ∀ ident ∈ m.declared, ident.name ≠ a.target.name)
    (h : ∀ ty, ¬ form.Denotes m.Types ty) : ReportsFailure w m := by
  refine reportsFailure_of_not_denotes (fun d hd => ?_) h
  have hd' : d ∈ a.globalFindings m.recordsInForce m.declared := by
    rw [Assignment.globalFindings, identNamed?_eq_none_iff.mpr hfree]
    exact Assignment.mem_unknown_iff.mpr ⟨form, hform, hd⟩
  exact mem_diagnostics_of_assignment hmem hd'

theorem reportsFailure_of_failure (h : m.Failure m.globals.scope) : ReportsFailure w m := by
  cases h with
  | poisoned h =>
    rcases isPoisoned_globals_iff.mp h with ⟨decl, hmem, rfl, hnone⟩ | ⟨decl, hmem, _, hnone⟩
    · exact reportsFailure_of_no_type hmem hnone
    · exact reportsFailure_of_no_signature hmem hnone
  | record hmem h => exact reportsFailure_of_record hmem h
  | function hmem h => exact reportsFailure_of_function hmem h
  | @untyped a hmem hform hfree h =>
    obtain ⟨form, hform⟩ := Option.isSome_iff_exists.mp hform
    refine reportsFailure_of_assignment hmem hform hfree fun ty hty => ?_
    cases local?_globals_iff.mp h with
    | untyped _ _ _ hnone => exact hnone a hmem ty ⟨rfl, form, hform, hty⟩

/-! ## Clean modules -/

theorem not_reportsFailure_of_clean (h : (check w m).isClean = true) : ¬ ReportsFailure w m := by
  intro hreports
  obtain ⟨d, hd, _⟩ := hreports
  rw [List.isEmpty_iff.mp h] at hd
  exact absurd hd (by simp)

/-- In a clean module every record and function item counts. -/
theorem counts_of_clean (h : (check w m).isClean = true) :
    m.globals.scope.recordCount = m.records.length ∧
      m.globals.scope.functionCount = m.functions.length := by
  have hquiet := not_reportsFailure_of_clean h
  have hnodup : (m.declared.map Ident.name).Nodup := by
    by_contra hdup
    exact hquiet (reportsFailure_of_redefinition (mt redefinitions_eq_nil_iff.mp hdup))
  rw [recordCount_globals, functionCount_globals]
  have hrecords : ∀ decl ∈ m.recordsInForce, (m.globals.known decl.name.name).isSome = true := by
    intro decl hmem
    by_contra hnone
    refine hquiet (reportsFailure_of_no_type hmem fun ty hty => hnone ?_)
    rw [known_eq_some_iff.mpr hty, Option.isSome_some]
  have hfunctions : ∀ decl ∈ m.functionsInForce,
      (decl.validSignature? m.globals.known).isSome = true := by
    intro decl hmem
    by_contra hnone
    refine hquiet (reportsFailure_of_no_signature hmem fun signature hsig => hnone ?_)
    rw [validSignature?_globals_iff.mpr hsig, Option.isSome_some]
  rw [List.countP_eq_length.mpr hrecords, List.countP_eq_length.mpr hfunctions,
    recordsInForce_of_nodup hnodup, functionsInForce_of_nodup hnodup]
  exact ⟨rfl, rfl⟩

/-- In a clean module a variable has the type of its first annotation. -/
theorem local?_of_clean (h : (check w m).isClean = true) {before after : List Assignment}
    {a : Assignment} {form : TyForm} (hsplit : m.assignments = before ++ a :: after)
    (hform : a.form = some form)
    (hfirst : ∀ b ∈ before, b.target.name = a.target.name → b.form = none) :
    ∃ ty, form.Denotes m.Types ty ∧
      m.globals.scope.local? a.target.name = some (.typed ty) := by
  have hquiet := not_reportsFailure_of_clean h
  have hmem : a ∈ m.assignments := by rw [hsplit]; simp
  have hfree : ∀ ident ∈ m.declared, ident.name ≠ a.target.name := by
    rw [← identNamed?_eq_none_iff]
    by_contra htaken
    obtain ⟨first, htaken⟩ := Option.ne_none_iff_exists'.mp htaken
    have hd : .duplicateDefinition a.target.name a.target.span first.span ∈
        a.globalFindings m.recordsInForce m.declared := by
      rw [Assignment.globalFindings, htaken]
      exact List.mem_singleton_self _
    exact hquiet ⟨_, mem_diagnostics_of_assignment hmem hd, rfl⟩
  have hdenotes : ∃ ty, form.Denotes m.Types ty := by
    by_contra hnone
    exact hquiet (reportsFailure_of_assignment hmem hform hfree fun ty hty => hnone ⟨ty, hty⟩)
  obtain ⟨ty, hty⟩ := hdenotes
  refine ⟨ty, hty, local?_globals_iff.mpr (.typed hfree hsplit ⟨rfl, form, hform, hty⟩ ?_)⟩
  -- Plain assignments before the first annotation give the variable no type.
  intro b hb ty' hassigns
  obtain ⟨hname, form', hform', _⟩ := hassigns
  rw [hfirst b hb hname] at hform'
  exact absurd hform' (by simp)

/-- Every failed declaration has been reported, so a clean module is complete. -/
theorem failure_is_reported (w : Widening) (m : Module) :
    (m.Failure (check w m).scope → ∃ d ∈ (check w m).diagnostics, d.isFailure = true) ∧
    ((check w m).isClean = true →
      (∀ name, (check w m).scope.isPoisoned name = false) ∧
      (check w m).scope.recordCount = m.records.length ∧
      (check w m).scope.functionCount = m.functions.length ∧
      (∀ draw source?, (Command.present draw .human source? m (check w m)).out =
        ["OK: " ++ Nat.repr (check w m).scope.functionCount ++ " functions, " ++
          Nat.repr (check w m).scope.recordCount ++ " records"]) ∧
      ∀ before a after form, m.assignments = before ++ a :: after → a.form = some form →
        (∀ b ∈ before, b.target.name = a.target.name → b.form = none) →
        ∃ ty, form.Denotes (check w m).scope.Registers ty ∧
          (check w m).scope.local? a.target.name = some (.typed ty)) := by
  refine ⟨reportsFailure_of_failure, fun hclean => ?_⟩
  obtain ⟨hrecords, hfunctions⟩ := counts_of_clean hclean
  refine ⟨fun name => ?_, hrecords, hfunctions, fun draw source? => ?_, ?_⟩
  · cases hpoisoned : (check w m).scope.isPoisoned name with
    | false => rfl
    | true =>
      exact absurd (reportsFailure_of_failure (.poisoned hpoisoned))
        (not_reportsFailure_of_clean hclean)
  · show (Command.present draw .human source? m (check w m)).out =
      ["OK: " ++ Nat.repr m.globals.scope.functionCount ++ " functions, " ++
        Nat.repr m.globals.scope.recordCount ++ " records"]
    rw [hrecords, hfunctions]
    simp only [Command.present, Command.outLines, hclean, if_true]
  · intro before a after form hsplit hform hfirst
    obtain ⟨ty, hty, hlocal⟩ := local?_of_clean hclean hsplit hform hfirst
    refine ⟨ty, ?_, hlocal⟩
    show form.Denotes m.globals.scope.Registers ty
    rw [registers_eq]
    exact hty

end Module

end Conform
