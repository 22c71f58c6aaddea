import Conform.Check
import Conform.Proofs.Expr
import Conform.Proofs.Globals

/-!
# What is reported of declarations

Membership in each list of findings about declarations, as a rule on what is declared: an unknown
type is reported for every name that an annotation mentions and no record in force has, a malformed
one for a function whose annotations all denote types and whose parameters still repeat a name.

**Only the search through the records reports recursion** (`recursiveRecord_mem_iff`): no other
finding on a module is of that kind, so what `Proofs/Resolved.lean` says of the search holds of the
whole check.
-/

namespace Conform

/-! ## Annotations -/

theorem TyForm.mem_unknown_iff {records : List RecordDecl} {form : TyForm} {d : Diagnostic} :
    d ∈ form.unknown records ↔ ∃ ref, form.Mentions ref ∧ recordNamed? records ref.name = none ∧
      d = .unknownType ref.name ref.span := by
  unfold unknown
  rw [List.mem_filterMap]
  refine exists_congr fun ref => ?_
  rw [mem_references_iff]
  refine and_congr_right fun _ => ?_
  cases recordNamed? records ref.name with
  | none => simp [eq_comm]
  | some decl => simp

theorem TyForm.unknown_eq_nil_iff {records : List RecordDecl} {form : TyForm} :
    form.unknown records = [] ↔
      ∀ ref, form.Mentions ref → ∃ decl ∈ records, decl.name.name = ref.name := by
  rw [List.eq_nil_iff_forall_not_mem]
  constructor
  · intro h ref href
    cases hdecl : recordNamed? records ref.name with
    | none => exact absurd (mem_unknown_iff.mpr ⟨ref, href, hdecl, rfl⟩) (h _)
    | some decl =>
      obtain ⟨hmem, hname⟩ := mem_of_recordNamed? hdecl
      exact ⟨decl, hmem, hname⟩
  · intro h d hd
    obtain ⟨ref, href, hnone, _⟩ := mem_unknown_iff.mp hd
    obtain ⟨decl, hmem, hname⟩ := h ref href
    exact recordNamed?_eq_none_iff.mp hnone decl hmem hname

/-- An annotation of an assignment. -/
theorem Assignment.mem_unknown_iff {records : List RecordDecl} {a : Assignment} {d : Diagnostic} :
    d ∈ a.unknown records ↔ ∃ form, a.form = some form ∧ d ∈ form.unknown records := by
  unfold unknown
  cases a.form with
  | none => simp
  | some form => simp

theorem Assignment.unknown_eq_nil_iff {records : List RecordDecl} {a : Assignment} :
    a.unknown records = [] ↔ ∀ form, a.form = some form → form.unknown records = [] := by
  unfold unknown
  cases a.form <;> simp

theorem Assignment.globalFindings_eq_nil_iff {records : List RecordDecl} {declared : List Ident}
    {a : Assignment} :
    a.globalFindings records declared = [] ↔
      identNamed? declared a.target.name = none ∧ a.unknown records = [] := by
  unfold globalFindings
  cases identNamed? declared a.target.name <;> simp

/-- An annotation of a function declaration, of a parameter or of what it returns. -/
def FunctionDecl.Annotates (decl : FunctionDecl) (form : TyForm) : Prop :=
  (∃ param ∈ decl.params, param.form = form) ∨ decl.returns = form

theorem FunctionDecl.mem_unknown_iff {records : List RecordDecl} {decl : FunctionDecl}
    {d : Diagnostic} :
    d ∈ decl.unknown records ↔ ∃ form, decl.Annotates form ∧ d ∈ form.unknown records := by
  unfold unknown Annotates
  rw [List.mem_append, List.mem_flatMap]
  constructor
  · intro h
    rcases h with ⟨param, hmem, hd⟩ | hd
    · exact ⟨param.form, Or.inl ⟨param, hmem, rfl⟩, hd⟩
    · exact ⟨decl.returns, Or.inr rfl, hd⟩
  · intro h
    obtain ⟨form, ⟨param, hmem, rfl⟩ | rfl, hd⟩ := h
    · exact Or.inl ⟨param, hmem, hd⟩
    · exact Or.inr hd

theorem FunctionDecl.unknown_eq_nil_iff {records : List RecordDecl} {decl : FunctionDecl} :
    decl.unknown records = [] ↔ ∀ form, decl.Annotates form → form.unknown records = [] := by
  simp only [List.eq_nil_iff_forall_not_mem, FunctionDecl.mem_unknown_iff, not_exists, not_and]
  exact ⟨fun h form hform d => h d form hform, fun h d form hform => h form hform d⟩

/-- Of a function whose annotations denote types, only the names of its parameters can be found
at fault. -/
theorem FunctionDecl.malformed_eq_nil_iff {types : String → Ty → Prop} {known : String → Option Ty}
    (hknows : Knows known types) {decl : FunctionDecl}
    (hparams : ∀ param ∈ decl.params, ∃ ty, param.form.Denotes types ty)
    (hreturns : ∃ ty, decl.returns.Denotes types ty) :
    decl.malformed known = [] ↔ (decl.params.map fun param => param.name.name).Nodup := by
  obtain ⟨params, hlist⟩ := exists_declares hparams
  obtain ⟨returns, hreturns⟩ := hreturns
  have hmade : decl.signature? known = some (Signature.make? params returns) := by
    rw [signature?_eq_some_iff, hknows.eq]
    exact ⟨params, returns, hlist, hreturns, rfl⟩
  rw [malformed, hmade, ← map_name_of_declares hlist]
  cases hmake : Signature.make? params returns with
  | ok signature => simp [(Signature.make?_eq_ok_iff.mp hmake).1]
  | error cause =>
    have hrepeat : ¬ (params.map Param.name).Nodup := fun hnodup => by
      rw [Signature.make?_eq_ok_iff.mpr ⟨hnodup, rfl⟩] at hmake
      exact absurd hmake (by simp)
    simp [hrepeat]

theorem FunctionDecl.exists_of_mem_malformed {known : String → Option Ty} {decl : FunctionDecl}
    {d : Diagnostic} (h : d ∈ decl.malformed known) :
    ∃ cause, d = .malformedType decl.name.name cause decl.name.span := by
  unfold malformed at h
  split at h
  · exact ⟨_, List.mem_singleton.mp h⟩
  · exact absurd h (by simp)

/-! ## Findings on statements -/

/-- Whether a finding is that a record contains itself. -/
def Diagnostic.isRecursive : Diagnostic → Bool
  | .recursiveRecord .. => true
  | _ => false

section NotRecursive

variable {w : Widening} {g : Globals} {scope : Scope} {place : Place} {d : Diagnostic}

/-- What is found in the arguments and the result of a call are mismatches. -/
theorem mismatch_of_mem_callFindings {callee : Ident} {args : List Expr} {span : Span}
    {context? : Option Ty} (h : d ∈ callFindings w scope callee args span context?) :
    ∃ expected found cause place, d = .mismatch expected found cause place := by
  unfold callFindings at h
  split at h
  · obtain ⟨fault, _, rfl⟩ := List.mem_map.mp h
    cases fault with
    | arity _ _ => exact ⟨_, _, _, _, rfl⟩
    | argument _ _ _ _ => exact ⟨_, _, _, _, rfl⟩
    | result _ _ => exact ⟨_, _, _, _, rfl⟩
  · exact absurd h (by simp)

theorem isRecursive_callFindings {callee : Ident} {args : List Expr} {span : Span}
    {context? : Option Ty} (h : d ∈ callFindings w scope callee args span context?) :
    d.isRecursive = false := by
  obtain ⟨_, _, _, _, rfl⟩ := mismatch_of_mem_callFindings h
  rfl

theorem isRecursive_calleeFindings {callee : Ident} (h : d ∈ calleeFindings scope callee) :
    d.isRecursive = false := by
  unfold calleeFindings at h
  split at h
  · exact absurd h (by simp)
  · rw [List.mem_singleton.mp h]; rfl
  · exact absurd h (by simp)
  · split at h
    · exact absurd h (by simp)
    · rw [List.mem_singleton.mp h]; rfl

namespace Expr

variable {e : Expr}

theorem isRecursive_findings (h : d ∈ e.findings w scope) : d.isRecursive = false := by
  induction e using induct with
  | scalar kind span => exact absurd h (by simp [findings])
  | dict entries span ih =>
    rw [findings, findingsEntries_eq_flatMap] at h
    obtain ⟨entry, hmem, hd⟩ := List.mem_flatMap.mp h
    exact ih entry hmem hd
  | call callee args span ih =>
    rw [findings, findingsAll_eq_flatMap, List.mem_append, List.mem_append] at h
    rcases h with (h | h) | h
    · exact isRecursive_calleeFindings h
    · obtain ⟨arg, hmem, hd⟩ := List.mem_flatMap.mp h
      exact ih arg hmem hd
    · exact isRecursive_callFindings h
  | name ident =>
    rw [findings] at h
    split at h
    · exact absurd h (by simp)
    · rw [List.mem_singleton.mp h]; rfl

/-- What is found where a type is expected: the same as where none is, and that the expression is
not accepted, which a call says among the findings on its arguments. -/
theorem findingsAt_eq (w : Widening) (scope : Scope) (expected : Ty) (e : Expr) :
    (∃ callee args span, e = .call callee args span ∧ e.findingsAt w scope expected =
        calleeFindings scope callee ++ args.flatMap (·.findings w scope) ++
          callFindings w scope callee args span (some expected)) ∨
      (∀ callee args span, e ≠ .call callee args span) ∧ e.findingsAt w scope expected =
        e.findings w scope ++ ((expected.valueMismatch? w scope e).map fun cause =>
          Diagnostic.mismatch expected (e.describe scope) cause e.span).toList := by
  cases e with
  | call callee args span =>
    refine Or.inl ⟨callee, args, span, rfl, ?_⟩
    rw [findingsAt, findingsAll_eq_flatMap]
  | scalar kind span =>
    refine Or.inr ⟨fun _ _ _ => nofun, ?_⟩
    rw [findingsAt]
    · cases expected.valueMismatch? w scope (.scalar kind span) <;> rfl
    · exact fun _ _ _ => nofun
  | dict entries span =>
    refine Or.inr ⟨fun _ _ _ => nofun, ?_⟩
    rw [findingsAt]
    · cases expected.valueMismatch? w scope (.dict entries span) <;> rfl
    · exact fun _ _ _ => nofun
  | name ident =>
    refine Or.inr ⟨fun _ _ _ => nofun, ?_⟩
    rw [findingsAt]
    · cases expected.valueMismatch? w scope (.name ident) <;> rfl
    · exact fun _ _ _ => nofun

theorem isRecursive_findingsAt {expected : Ty} (h : d ∈ e.findingsAt w scope expected) :
    d.isRecursive = false := by
  rcases findingsAt_eq w scope expected e with ⟨callee, args, span, rfl, heq⟩ | ⟨_, heq⟩
  · rw [heq, List.mem_append, List.mem_append] at h
    rcases h with (h | h) | h
    · exact isRecursive_calleeFindings h
    · obtain ⟨arg, _, hd⟩ := List.mem_flatMap.mp h
      exact isRecursive_findings hd
    · exact isRecursive_callFindings h
  · rw [heq, List.mem_append] at h
    rcases h with h | h
    · exact isRecursive_findings h
    · obtain ⟨cause, _, rfl⟩ := Option.map_eq_some_iff.mp (Option.mem_toList.mp h)
      rfl

theorem isRecursive_findingsIn {expected? : Option Ty} (h : d ∈ e.findingsIn w scope expected?) :
    d.isRecursive = false := by
  cases expected? with
  | none => exact isRecursive_findings h
  | some expected => exact isRecursive_findingsAt h

end Expr

theorem TyForm.isRecursive_unknown {records : List RecordDecl} {form : TyForm}
    (h : d ∈ form.unknown records) : d.isRecursive = false := by
  obtain ⟨_, _, _, rfl⟩ := mem_unknown_iff.mp h
  rfl

theorem Assignment.isRecursive_unknown {records : List RecordDecl} {a : Assignment}
    (h : d ∈ a.unknown records) : d.isRecursive = false := by
  obtain ⟨form, _, hd⟩ := mem_unknown_iff.mp h
  exact form.isRecursive_unknown hd

theorem Stmt.isRecursive_findings {stmt : Stmt} (h : d ∈ stmt.findings w g place scope) :
    d.isRecursive = false := by
  cases stmt with
  | expr value => exact Expr.isRecursive_findings h
  | ret value? span =>
    cases place with
    | topLevel =>
      rcases List.mem_cons.mp h with rfl | h
      · rfl
      · cases value? with
        | none => exact absurd h (by simp)
        | some value => exact Expr.isRecursive_findings h
    | body returns? => exact Expr.isRecursive_findingsIn h
  | assign a =>
    rw [findings] at h
    split at h
    · exact Expr.isRecursive_findings h
    · rcases List.mem_append.mp h with h | h
      · exact a.isRecursive_unknown h
      · exact Expr.isRecursive_findingsIn h

theorem isRecursive_findingsOfBody {stmts : List Stmt}
    (h : d ∈ findingsOfBody w g place scope stmts) : d.isRecursive = false := by
  induction stmts generalizing scope with
  | nil => exact absurd h (by simp [findingsOfBody])
  | cons stmt rest ih =>
    rcases List.mem_append.mp h with h | h
    · exact stmt.isRecursive_findings h
    · exact ih h

theorem isRecursive_findingsOfItems {items : List Item}
    (h : d ∈ findingsOfItems w g scope items) : d.isRecursive = false := by
  induction items generalizing scope with
  | nil => exact absurd h (by simp [findingsOfItems])
  | cons item rest ih =>
    cases item with
    | function decl =>
      rcases List.mem_append.mp h with h | h
      · exact isRecursive_findingsOfBody h
      · exact ih h
    | record decl => exact ih h
    | stmt stmt =>
      rcases List.mem_append.mp h with h | h
      · exact stmt.isRecursive_findings h
      · exact ih h

end NotRecursive

/-! ## Findings, each once -/

theorem nodup_eraseDups (ds : List Diagnostic) : ds.eraseDups.Nodup := by
  cases ds with
  | nil => exact .nil
  | cons d rest =>
    rw [List.eraseDups_cons]
    refine List.nodup_cons.mpr ⟨fun h => ?_, nodup_eraseDups _⟩
    have hmem := List.mem_eraseDups.mp h
    simp at hmem
termination_by ds.length
decreasing_by
  have h := List.length_filter_le (fun other => !other == d) rest
  simp only [List.length_cons]
  omega

/-- Whether repetitions are erased before or after a choice makes no difference to it. -/
theorem filter_eraseDups (p : Diagnostic → Bool) (ds : List Diagnostic) :
    ds.eraseDups.filter p = (ds.filter p).eraseDups := by
  cases ds with
  | nil => rfl
  | cons d rest =>
    have ih := filter_eraseDups p (rest.filter fun other => !other == d)
    rw [List.eraseDups_cons]
    cases hd : p d with
    | true =>
      rw [List.filter_cons_of_pos hd, List.filter_cons_of_pos hd, List.eraseDups_cons, ih,
        List.filter_filter, List.filter_filter]
      simp only [Bool.and_comm]
    | false =>
      have hskip : ∀ other ∈ rest, p other = true → (!other == d) = true := by
        intro other _ hother
        by_contra heq
        have heq : other = d := by simpa using heq
        rw [heq, hd] at hother
        exact absurd hother (by simp)
      rw [List.filter_cons_of_neg (by simp [hd]), List.filter_cons_of_neg (by simp [hd]), ih,
        List.filter_filter]
      congr 1
      refine List.filter_congr fun other hother => ?_
      cases hp : p other with
      | true => simpa using hskip other hother hp
      | false => rfl
termination_by ds.length
decreasing_by
  have h := List.length_filter_le (fun other => !other == d) rest
  simp only [List.length_cons]
  omega

/-! ## Findings of a module -/

/-- What is found on items lies in a function or among the top-level statements. -/
theorem mem_findingsOfItems_iff {w : Widening} {g : Globals} {scope : Scope} {items : List Item}
    {d : Diagnostic} :
    d ∈ findingsOfItems w g scope items ↔
      (∃ decl, .function decl ∈ items ∧ d ∈ decl.findings w g) ∨
      d ∈ findingsOfBody w g .topLevel scope (items.filterMap Item.stmt?) := by
  -- Only statements change the scope, so a function between two of them can be passed over.
  induction items generalizing scope with
  | nil => simp [findingsOfItems, findingsOfBody]
  | cons item rest ih =>
    cases item with
    | function decl =>
      rw [findingsOfItems, List.mem_append, ih]
      simp [List.filterMap_cons, Item.stmt?, or_and_right, exists_or, or_assoc]
    | record decl =>
      rw [findingsOfItems, ih]
      simp [List.filterMap_cons, Item.stmt?]
    | stmt stmt =>
      rw [findingsOfItems, List.mem_append, ih]
      simp [Item.stmt?, findingsOfBody, or_left_comm]

theorem mem_diagnostics_iff {w : Widening} {m : Module} {d : Diagnostic} :
    d ∈ (check w m).diagnostics ↔ d ∈ m.globals.findings m ∨
      d ∈ findingsOfItems w m.globals m.globals.scope.push m.items :=
  List.mem_eraseDups.trans List.mem_append

theorem isClean_iff {w : Widening} {m : Module} :
    (check w m).isClean = true ↔ m.globals.findings m = [] ∧
      findingsOfItems w m.globals m.globals.scope.push m.items = [] := by
  rw [Outcome.isClean, List.isEmpty_iff]
  simp only [List.eq_nil_iff_forall_not_mem, mem_diagnostics_iff, not_or, forall_and]

theorem nodup_diagnostics (w : Widening) (m : Module) : (check w m).diagnostics.Nodup :=
  nodup_eraseDups _

namespace Module

variable {m : Module} {d : Diagnostic}

theorem mem_functions_iff {decl : FunctionDecl} :
    decl ∈ m.functions ↔ ∃ inForce, (decl, inForce) ∈ m.functionsRanked := by
  rw [← m.map_fst_functionsRanked, List.mem_map]
  constructor
  · intro h
    obtain ⟨⟨_, inForce⟩, hmem, rfl⟩ := h
    exact ⟨inForce, hmem⟩
  · intro h
    obtain ⟨inForce, hmem⟩ := h
    exact ⟨_, hmem, rfl⟩

theorem mem_functionsInForce_iff_ranked {decl : FunctionDecl} :
    decl ∈ m.functionsInForce ↔ (decl, true) ∈ m.functionsRanked := by
  unfold functionsInForce
  rw [List.mem_map]
  constructor
  · intro h
    obtain ⟨⟨_, inForce⟩, hmem, rfl⟩ := h
    obtain ⟨hmem, hforce⟩ := List.mem_filter.mp hmem
    obtain rfl : inForce = true := hforce
    exact hmem
  · intro h
    exact ⟨_, List.mem_filter.mpr ⟨h, rfl⟩, rfl⟩

/-- Where a finding on the declarations of a module comes from. -/
theorem mem_globals_findings_iff :
    d ∈ m.globals.findings m ↔
      d ∈ m.redefinitions ∨ d ∈ (Resolution.all m.recordsInForce).reports ∨
      (∃ decl ∈ m.functions, d ∈ decl.unknown m.recordsInForce) ∨
      (∃ decl ∈ m.functionsInForce, d ∈ decl.malformed m.globals.known) ∨
      ∃ a ∈ m.assignments, d ∈ a.globalFindings m.recordsInForce m.declared := by
  have hfunctions : (d ∈ m.functionsRanked.flatMap fun entry => entry.1.unknown m.recordsInForce ++
      if entry.2 then entry.1.malformed m.globals.known else []) ↔
      (∃ decl ∈ m.functions, d ∈ decl.unknown m.recordsInForce) ∨
        ∃ decl ∈ m.functionsInForce, d ∈ decl.malformed m.globals.known := by
    rw [List.mem_flatMap]
    constructor
    · intro h
      obtain ⟨⟨decl, inForce⟩, hmem, hd⟩ := h
      rcases List.mem_append.mp hd with hd | hd
      · exact Or.inl ⟨decl, mem_functions_iff.mpr ⟨inForce, hmem⟩, hd⟩
      · cases inForce with
        | true => exact Or.inr ⟨decl, mem_functionsInForce_iff_ranked.mpr hmem, hd⟩
        | false => exact absurd hd (by simp)
    · intro h
      rcases h with ⟨decl, hmem, hd⟩ | ⟨decl, hmem, hd⟩
      · obtain ⟨inForce, hmem⟩ := mem_functions_iff.mp hmem
        exact ⟨_, hmem, List.mem_append.mpr (Or.inl hd)⟩
      · exact ⟨_, mem_functionsInForce_iff_ranked.mp hmem, List.mem_append.mpr (Or.inr hd)⟩
  unfold Globals.findings
  rw [List.mem_append, List.mem_append, List.mem_append, List.mem_flatMap (l := m.assignments)]
  exact (or_congr (or_congr Iff.rfl hfunctions) Iff.rfl).trans (by simp only [or_assoc]; rfl)

/-- Nothing is found about the declarations of a module. -/
theorem globals_findings_eq_nil_iff :
    m.globals.findings m = [] ↔
      m.redefinitions = [] ∧ (Resolution.all m.recordsInForce).reports = [] ∧
      (∀ decl ∈ m.functions, decl.unknown m.recordsInForce = []) ∧
      (∀ decl ∈ m.functionsInForce, decl.malformed m.globals.known = []) ∧
      ∀ a ∈ m.assignments, a.globalFindings m.recordsInForce m.declared = [] := by
  simp only [List.eq_nil_iff_forall_not_mem, mem_globals_findings_iff, not_or, not_exists, not_and]
  constructor
  · intro h
    exact ⟨fun d => (h d).1, fun d => (h d).2.1, fun decl hmem d => (h d).2.2.1 decl hmem,
      fun decl hmem d => (h d).2.2.2.1 decl hmem, fun a hmem d => (h d).2.2.2.2 a hmem⟩
  · intro h d
    obtain ⟨hredef, hreports, hunknown, hmalformed, hassign⟩ := h
    exact ⟨hredef d, hreports d, fun decl hmem => hunknown decl hmem d,
      fun decl hmem => hmalformed decl hmem d, fun a hmem => hassign a hmem d⟩

/-- Each declaration of a name that is taken is reported with the definition that has taken it. -/
theorem mem_redefinitions_iff :
    d ∈ m.redefinitions ↔ ∃ item ident first, m.Redefines item ident first ∧
      d = .duplicateDefinition ident.name ident.span first.span := by
  unfold redefinitions
  rw [List.mem_filterMap]
  constructor
  · intro h
    obtain ⟨⟨item, first?⟩, hmem, hd⟩ := h
    obtain ⟨ident, hdecl, hd⟩ := Option.bind_eq_some_iff.mp hd
    obtain ⟨first, rfl, hd⟩ := Option.bind_eq_some_iff.mp hd
    obtain ⟨ident', before, after, hitems, hdecl', hfirst⟩ := mem_ranked_some_iff.mp hmem
    obtain rfl : ident = ident' := Option.some.inj (hdecl.symm.trans hdecl')
    exact ⟨item, ident, first, ⟨before, after, hitems, hdecl, hfirst⟩, (Option.some.inj hd).symm⟩
  · intro h
    obtain ⟨item, ident, first, hredefines, rfl⟩ := h
    refine ⟨(item, some first), mem_ranked_some_iff.mpr ⟨ident, hredefines⟩, ?_⟩
    obtain ⟨_, _, _, hdecl, _⟩ := hredefines
    simp [hdecl]

theorem exists_of_mem_redefinitions (h : d ∈ m.redefinitions) :
    ∃ name span first, d = .duplicateDefinition name span first := by
  obtain ⟨_, _, _, _, rfl⟩ := mem_redefinitions_iff.mp h
  exact ⟨_, _, _, rfl⟩

/-- What can be wrong with declarations: a name that stands for no type, a record that contains
itself, parts that make no type, a redefinition. -/
theorem kind_of_mem_globals_findings (h : d ∈ m.globals.findings m) :
    (∃ name span, d = .unknownType name span) ∨ (∃ name span, d = .recursiveRecord name span) ∨
      (∃ name cause span, d = .malformedType name cause span) ∨
        ∃ name span first, d = .duplicateDefinition name span first := by
  have hunknown : ∀ {form : TyForm}, d ∈ form.unknown m.recordsInForce →
      ∃ name span, d = .unknownType name span := by
    intro form h
    obtain ⟨ref, _, _, heq⟩ := TyForm.mem_unknown_iff.mp h
    exact ⟨_, _, heq⟩
  rcases mem_globals_findings_iff.mp h with h | h | ⟨decl, _, h⟩ | ⟨decl, _, h⟩ | ⟨a, _, h⟩
  · exact Or.inr (Or.inr (Or.inr (exists_of_mem_redefinitions h)))
  · obtain ⟨hrun, _⟩ := Resolution.all_reached m.recordsInForce
    cases Resolution.justified_of_mem_reports hrun h with
    | unknown => exact Or.inl ⟨_, _, rfl⟩
    | recursive => exact Or.inr (Or.inl ⟨_, _, rfl⟩)
    | malformed => exact Or.inr (Or.inr (Or.inl ⟨_, _, _, rfl⟩))
  · obtain ⟨form, _, h⟩ := FunctionDecl.mem_unknown_iff.mp h
    exact Or.inl (hunknown h)
  · obtain ⟨cause, heq⟩ := FunctionDecl.exists_of_mem_malformed h
    exact Or.inr (Or.inr (Or.inl ⟨_, cause, _, heq⟩))
  · unfold Assignment.globalFindings at h
    split at h
    · exact Or.inr (Or.inr (Or.inr ⟨_, _, _, List.mem_singleton.mp h⟩))
    · obtain ⟨form, _, h⟩ := Assignment.mem_unknown_iff.mp h
      exact Or.inl (hunknown h)

/-- Only the search through the records reports a record that contains itself. -/
theorem recursiveRecord_mem_iff {w : Widening} {name : String} {span : Span} :
    .recursiveRecord name span ∈ (check w m).diagnostics ↔
      .recursiveRecord name span ∈ (Resolution.all m.recordsInForce).reports := by
  rw [mem_diagnostics_iff, mem_globals_findings_iff]
  constructor
  · intro h
    rcases h with (h | h | ⟨decl, _, h⟩ | ⟨decl, _, h⟩ | ⟨a, _, h⟩) | h
    · obtain ⟨_, _, _, h⟩ := exists_of_mem_redefinitions h
      exact absurd h Diagnostic.noConfusion
    · exact h
    · obtain ⟨form, _, h⟩ := FunctionDecl.mem_unknown_iff.mp h
      exact absurd (form.isRecursive_unknown h) Bool.noConfusion
    · unfold FunctionDecl.malformed at h
      split at h
      · exact absurd (List.mem_singleton.mp h) Diagnostic.noConfusion
      · exact absurd h (by simp)
    · unfold Assignment.globalFindings at h
      split at h
      · exact absurd (List.mem_singleton.mp h) Diagnostic.noConfusion
      · exact absurd (a.isRecursive_unknown h) Bool.noConfusion
    · exact absurd (isRecursive_findingsOfItems h) Bool.noConfusion
  · intro h
    exact Or.inl (Or.inr (Or.inl h))

end Module

end Conform
