import Conform.Proofs.Statements

/-!
# References that mean nothing

A name in an expression, or the callee of a call, may mean nothing. Whether that is reported is a
matter of scoping alone: **each such use is reported, and nothing else is**
(`unresolved_reported_iff`), whatever the module has wrong with its types besides.

`Occurs` lists the expressions of a module, each with the names that are bound at its statement. It
says nothing of types, of how many arguments a call has, of whether a function is a redefinition or
has a signature at all, of whether a `return` may stand where it does: a mistake of that kind
neither hides a use nor reports it again. What makes that true is the invariant of the scopes
(`isBound_globals_iff`): a declaration that fails leaves its name poisoned, and a poisoned name is
bound.

The proof follows the walk. An expression is searched to any depth (`unresolved_mem_findings_iff`),
a statement searches the expression that it evaluates, and a body its statements in turn, each in
the scope that those before it leave (`isBound_scopeAfter_iff`).
-/

namespace Conform

/-! ## Uses of names -/

/-- How an expression uses a name. -/
inductive Use where
  | value
  | callee

/-- What is reported of the use of a name that means nothing. -/
def Use.unresolved : Use → Ident → Diagnostic
  | value, ident => .undefinedName ident.name ident.span
  | callee, ident => .unknownCallable ident.name ident.span

/-- A name is used in an expression, at any depth. -/
def Expr.Uses (e : Expr) (use : Use) (ident : Ident) : Prop :=
  match use with
  | .value => e.Contains (.name ident)
  | .callee => ∃ args span, e.Contains (.call ident args span)

theorem Use.unresolved_inj {use use' : Use} {ident ident' : Ident} :
    use.unresolved ident = use'.unresolved ident' ↔ use = use' ∧ ident = ident' := by
  obtain ⟨name, span⟩ := ident
  obtain ⟨name', span'⟩ := ident'
  cases use <;> cases use' <;> simp [unresolved]

namespace Expr

variable {use : Use} {ident : Ident}

theorem not_uses_scalar (kind : Scalar) (span : Span) : ¬ (scalar kind span).Uses use ident := by
  intro h
  cases use with
  | value => exact nomatch h
  | callee =>
    obtain ⟨_, _, h⟩ := h
    exact nomatch h

theorem uses_name_iff {other : Ident} :
    (name other).Uses use ident ↔ use = .value ∧ ident = other := by
  constructor
  · intro h
    cases use with
    | value =>
      cases h
      exact ⟨rfl, rfl⟩
    | callee =>
      obtain ⟨_, _, h⟩ := h
      exact nomatch h
  · intro h
    obtain ⟨rfl, rfl⟩ := h
    exact .refl _

theorem uses_dict_iff {entries : List (Entry Expr)} {span : Span} :
    (dict entries span).Uses use ident ↔ ∃ entry ∈ entries, entry.value.Uses use ident := by
  constructor
  · intro h
    cases use with
    | value =>
      cases h with
      | value hmem h => exact ⟨_, hmem, h⟩
    | callee =>
      obtain ⟨args, at', h⟩ := h
      cases h with
      | value hmem h => exact ⟨_, hmem, args, at', h⟩
  · intro h
    obtain ⟨entry, hmem, h⟩ := h
    cases use with
    | value => exact .value hmem h
    | callee =>
      obtain ⟨args, at', h⟩ := h
      exact ⟨args, at', .value hmem h⟩

theorem uses_call_iff {callee : Ident} {args : List Expr} {span : Span} :
    (call callee args span).Uses use ident ↔
      (use = .callee ∧ ident = callee) ∨ ∃ arg ∈ args, arg.Uses use ident := by
  constructor
  · intro h
    cases use with
    | value =>
      cases h with
      | arg hmem h => exact Or.inr ⟨_, hmem, h⟩
    | callee =>
      obtain ⟨args', at', h⟩ := h
      cases h with
      | refl => exact Or.inl ⟨rfl, rfl⟩
      | arg hmem h => exact Or.inr ⟨_, hmem, args', at', h⟩
  · intro h
    rcases h with ⟨rfl, rfl⟩ | ⟨arg, hmem, h⟩
    · exact ⟨args, span, .refl _⟩
    · cases use with
      | value => exact .arg hmem h
      | callee =>
        obtain ⟨args', at', h⟩ := h
        exact ⟨args', at', .arg hmem h⟩

end Expr

/-! ## What an expression reports -/

section Findings

variable {w : Widening} {scope : Scope} {use : Use} {ident : Ident}

theorem Use.unresolved_ne_mismatch {expected : Ty} {found : String} {cause : Mismatch}
    {span : Span} : use.unresolved ident ≠ .mismatch expected found cause span := by
  cases use with
  | value => exact Diagnostic.noConfusion
  | callee => exact Diagnostic.noConfusion

theorem Use.unresolved_not_mem_callFindings {callee : Ident} {args : List Expr} {span : Span}
    {context? : Option Ty} :
    use.unresolved ident ∉ callFindings w scope callee args span context? := by
  intro h
  obtain ⟨_, _, _, _, h⟩ := mismatch_of_mem_callFindings h
  exact Use.unresolved_ne_mismatch h

/-- Of a callee it is reported that it means nothing exactly if it does. -/
theorem unresolved_mem_calleeFindings_iff {callee : Ident} :
    use.unresolved ident ∈ calleeFindings scope callee ↔
      (use = .callee ∧ ident = callee) ∧ scope.isBound ident.name = false := by
  -- Where nothing of the kind is reported, the callee is found one way or another.
  have hquiet : ∀ ds : List Diagnostic, scope.isBound callee.name = true →
      use.unresolved ident ∉ ds → (use.unresolved ident ∈ ds ↔
        (use = .callee ∧ ident = callee) ∧ scope.isBound ident.name = false) := by
    intro ds hbound hnot
    refine iff_of_false hnot fun h => ?_
    obtain ⟨⟨_, rfl⟩, hunbound⟩ := h
    rw [hbound] at hunbound
    exact absurd hunbound (by simp)
  unfold calleeFindings
  cases hcallable : scope.callable? callee.name with
  | some signature => exact hquiet [] (Scope.isBound_of_callable? hcallable) (by simp)
  | none =>
    cases hlocal : scope.local? callee.name with
    | some binding =>
      have hbound := Scope.isBound_of_local? hlocal
      cases binding with
      | typed ty =>
        refine hquiet _ hbound fun h => ?_
        cases use <;> exact nomatch List.mem_singleton.mp h
      | untyped => exact hquiet [] hbound (by simp)
    | none =>
      dsimp only
      cases hbound : scope.isBound callee.name with
      | true => exact hquiet [] hbound (by simp)
      | false =>
        have hreport : Diagnostic.unknownCallable callee.name callee.span =
            Use.callee.unresolved callee := rfl
        rw [if_neg Bool.false_ne_true, List.mem_singleton, hreport, Use.unresolved_inj]
        constructor
        · intro h
          obtain ⟨rfl, rfl⟩ := h
          exact ⟨⟨rfl, rfl⟩, hbound⟩
        · intro h
          exact h.1

namespace Expr

/-- In an expression every use of a name that means nothing is reported. -/
theorem unresolved_mem_findings_iff {e : Expr} :
    use.unresolved ident ∈ e.findings w scope ↔
      e.Uses use ident ∧ scope.isBound ident.name = false := by
  induction e using induct with
  | scalar kind span =>
    exact iff_of_false (by simp [findings]) fun h => not_uses_scalar kind span h.1
  | dict entries span ih =>
    rw [findings, findingsEntries_eq_flatMap, List.mem_flatMap, uses_dict_iff]
    constructor
    · intro h
      obtain ⟨entry, hmem, h⟩ := h
      obtain ⟨huses, hunbound⟩ := (ih entry hmem).mp h
      exact ⟨⟨entry, hmem, huses⟩, hunbound⟩
    · intro h
      obtain ⟨⟨entry, hmem, huses⟩, hunbound⟩ := h
      exact ⟨entry, hmem, (ih entry hmem).mpr ⟨huses, hunbound⟩⟩
  | call callee args span ih =>
    rw [findings, findingsAll_eq_flatMap, List.mem_append, List.mem_append, List.mem_flatMap,
      unresolved_mem_calleeFindings_iff, uses_call_iff]
    constructor
    · intro h
      rcases h with (⟨hcallee, hunbound⟩ | ⟨arg, hmem, h⟩) | h
      · exact ⟨Or.inl hcallee, hunbound⟩
      · obtain ⟨huses, hunbound⟩ := (ih arg hmem).mp h
        exact ⟨Or.inr ⟨arg, hmem, huses⟩, hunbound⟩
      · exact absurd h Use.unresolved_not_mem_callFindings
    · intro h
      obtain ⟨hcallee | ⟨arg, hmem, huses⟩, hunbound⟩ := h
      · exact Or.inl (Or.inl ⟨hcallee, hunbound⟩)
      · exact Or.inl (Or.inr ⟨arg, hmem, (ih arg hmem).mpr ⟨huses, hunbound⟩⟩)
  | name other =>
    rw [findings, uses_name_iff]
    cases hbound : scope.isBound other.name with
    | true =>
      refine iff_of_false (by simp) fun h => ?_
      obtain ⟨⟨_, rfl⟩, hunbound⟩ := h
      rw [hbound] at hunbound
      exact absurd hunbound (by simp)
    | false =>
      have hreport : Diagnostic.undefinedName other.name other.span =
          Use.value.unresolved other := rfl
      rw [if_neg Bool.false_ne_true, List.mem_singleton, hreport, Use.unresolved_inj]
      constructor
      · intro h
        obtain ⟨rfl, rfl⟩ := h
        exact ⟨⟨rfl, rfl⟩, hbound⟩
      · intro h
        exact h.1

/-- A place with a type adds a mismatch at most. -/
theorem unresolved_mem_findingsAt_iff {e : Expr} {expected : Ty} :
    use.unresolved ident ∈ e.findingsAt w scope expected ↔
      use.unresolved ident ∈ e.findings w scope := by
  rcases findingsAt_eq w scope expected e with ⟨callee, args, span, rfl, heq⟩ | ⟨_, heq⟩
  · rw [heq, findings, findingsAll_eq_flatMap]
    simp only [List.mem_append, Use.unresolved_not_mem_callFindings, or_false]
  · rw [heq, List.mem_append]
    refine or_iff_left fun h => ?_
    obtain ⟨cause, _, h⟩ := Option.map_eq_some_iff.mp (Option.mem_toList.mp h)
    exact Use.unresolved_ne_mismatch h.symm

theorem unresolved_mem_findingsIn_iff {e : Expr} {expected? : Option Ty} :
    use.unresolved ident ∈ e.findingsIn w scope expected? ↔
      e.Uses use ident ∧ scope.isBound ident.name = false := by
  cases expected? with
  | none => exact unresolved_mem_findings_iff
  | some expected => exact unresolved_mem_findingsAt_iff.trans unresolved_mem_findings_iff

end Expr

/-! ## What statements report -/

variable {g : Globals} {place : Place}

theorem Use.unresolved_not_mem_unknown {records : List RecordDecl} {form : TyForm} :
    use.unresolved ident ∉ form.unknown records := by
  intro h
  obtain ⟨_, _, _, h⟩ := TyForm.mem_unknown_iff.mp h
  cases use <;> exact nomatch h

theorem Use.unresolved_not_mem_assignment_unknown {records : List RecordDecl} {a : Assignment} :
    use.unresolved ident ∉ a.unknown records := by
  intro h
  obtain ⟨form, _, h⟩ := Assignment.mem_unknown_iff.mp h
  exact Use.unresolved_not_mem_unknown h

/-- A statement searches the expression that it evaluates, wherever it stands. -/
theorem Stmt.unresolved_mem_findings_iff {stmt : Stmt} :
    use.unresolved ident ∈ stmt.findings w g place scope ↔
      ∃ e, stmt.Evaluates e ∧ e.Uses use ident ∧ scope.isBound ident.name = false := by
  have hevaluates : ∀ {value : Expr}, stmt.Evaluates value →
      (∀ e, stmt.Evaluates e → e = value) →
      (value.Uses use ident ∧ scope.isBound ident.name = false ↔
        ∃ e, stmt.Evaluates e ∧ e.Uses use ident ∧ scope.isBound ident.name = false) := by
    intro value hvalue honly
    constructor
    · intro h
      exact ⟨value, hvalue, h⟩
    · intro h
      obtain ⟨e, he, h⟩ := h
      exact honly e he ▸ h
  cases stmt with
  | expr value =>
    exact Expr.unresolved_mem_findings_iff.trans
      (hevaluates (.expr value) fun e he => by cases he; rfl)
  | ret value? span =>
    cases value? with
    | none =>
      refine iff_of_false (fun h => ?_) fun ⟨_, he, _⟩ => nomatch he
      cases place with
      | topLevel => cases use <;> exact nomatch List.mem_singleton.mp h
      | body returns? =>
        exact Expr.not_uses_scalar .none span (Expr.unresolved_mem_findingsIn_iff.mp h).1
    | some value =>
      refine Iff.trans ?_ (hevaluates (.ret value span) fun e he => by cases he; rfl)
      cases place with
      | topLevel =>
        rw [findings, List.mem_cons]
        refine Iff.trans (or_iff_right fun h => ?_) Expr.unresolved_mem_findings_iff
        cases use <;> exact nomatch h
      | body returns? => exact Expr.unresolved_mem_findingsIn_iff
  | assign a =>
    refine Iff.trans ?_ (hevaluates (.assign a) fun e he => by cases he; rfl)
    rw [findings]
    split
    · exact Expr.unresolved_mem_findings_iff
    · rw [List.mem_append]
      exact Iff.trans (or_iff_right Use.unresolved_not_mem_assignment_unknown)
        Expr.unresolved_mem_findingsIn_iff

end Findings

/-! ## Which names are bound -/

/-- After some statements the names are bound that were before, and the targets of assignments. -/
theorem isBound_scopeAfter_iff {g : Globals} {place : Place} {scope : Scope} {stmts : List Stmt}
    {name : String} :
    (scopeAfter g place scope stmts).isBound name = true ↔
      (∃ a, .assign a ∈ stmts ∧ a.isRedefinition g place = false ∧ a.target.name = name) ∨
        scope.isBound name = true := by
  induction stmts generalizing scope with
  | nil => simp [scopeAfter]
  | cons stmt rest ih =>
    have hstep : (stmt.leaves g place scope).isBound name = true ↔
        (∃ a, stmt = .assign a ∧ a.isRedefinition g place = false ∧ a.target.name = name) ∨
          scope.isBound name = true := by
      cases stmt with
      | expr _ => simp [Stmt.leaves]
      | ret _ _ => simp [Stmt.leaves]
      | assign a =>
        rw [Stmt.leaves]
        cases hredef : a.isRedefinition g place <;> simp [hredef]
    have hsplit : (∃ a, .assign a ∈ stmt :: rest ∧ a.isRedefinition g place = false ∧
          a.target.name = name) ↔
        (∃ a, .assign a ∈ rest ∧ a.isRedefinition g place = false ∧ a.target.name = name) ∨
          ∃ a, stmt = .assign a ∧ a.isRedefinition g place = false ∧ a.target.name = name := by
      simp only [List.mem_cons, or_and_right, exists_or, eq_comm (b := stmt), or_comm]
    rw [scopeAfter, List.foldl_cons, ← scopeAfter, ih, hstep, hsplit, or_assoc]

/-- In a body the parameters are bound besides what is bound everywhere. -/
theorem isBound_bodyScope_iff {g : Globals} {decl : FunctionDecl} {name : String} :
    (decl.bodyScope g).isBound name = true ↔
      (∃ param ∈ decl.params, param.name.name = name) ∨ g.scope.isBound name = true := by
  have hflag := flag_foldl_iff (fun param : ParamDecl => param.name.name)
    (fun scope param => scope.bind param.name.name (.ofOption (param.form.denote? g.known))) name
    (fun scope => scope.isBound name) (fun _ => true)
    (fun scope param => by by_cases hname : param.name.name = name <;> simp [hname])
    decl.params g.scope.push
  unfold FunctionDecl.bodyScope
  rw [hflag]
  simp

namespace Module

/-- A name means something everywhere in a module: a top-level assignment targets it, or a record or
function item declares it. -/
def BindsGlobally (m : Module) (name : String) : Prop :=
  (∃ a, .assign a ∈ m.statements ∧ a.target.name = name) ∨ ∃ ident ∈ m.declared, ident.name = name

/-- An expression that a module evaluates, with the names that are bound at its statement. -/
inductive Occurs (m : Module) : (String → Prop) → Expr → Prop
  | topLevel {stmt : Stmt} {e : Expr} (hmem : stmt ∈ m.statements) (h : stmt.Evaluates e) :
      Occurs m m.BindsGlobally e
  | body {decl : FunctionDecl} {before after : List Stmt} {stmt : Stmt} {e : Expr}
      (hmem : decl ∈ m.functions) (hsplit : decl.body = before ++ stmt :: after)
      (h : stmt.Evaluates e) :
      Occurs m (fun name => (∃ param ∈ decl.params, param.name.name = name) ∨
        (∃ a, .assign a ∈ before ∧ a.target.name = name) ∨ m.BindsGlobally name) e

variable {w : Widening} {m : Module} {use : Use} {ident : Ident} {name : String}

/-- Every declared name is registered or poisoned, and every other target is a variable. -/
theorem isBound_globals_iff : m.globals.scope.isBound name = true ↔ m.BindsGlobally name := by
  unfold Scope.isBound BindsGlobally
  rw [Bool.or_assoc, Bool.or_assoc, Bool.or_eq_true, ← Bool.or_assoc, found_globals_iff]
  simp only [← mem_assignments_iff]
  by_cases hdeclared : ∃ ident ∈ m.declared, ident.name = name
  · exact iff_of_true (Or.inr hdeclared) (Or.inr hdeclared)
  · have hfree : identNamed? m.declared name = none := by
      rw [identNamed?_eq_none_iff]
      exact fun ident hmem hname => hdeclared ⟨ident, hmem, hname⟩
    refine or_congr ?_ Iff.rfl
    rw [local?_globals, hfree, Option.isSome_none, if_neg Bool.false_ne_true]
    cases htyped : m.assignments.findSome? (assigned? m.globals.known name) with
    | some ty =>
      obtain ⟨a, hmem, ha⟩ := List.exists_of_findSome?_eq_some htyped
      have htarget : a.target.name = name := (assigned?_eq_some_iff.mp ha).1
      exact iff_of_true rfl ⟨a, hmem, htarget⟩
    | none =>
      by_cases hex : ∃ a ∈ m.assignments, a.target.name = name
      · rw [if_pos hex]
        exact iff_of_true rfl hex
      · rw [if_neg hex]
        exact iff_of_false Bool.false_ne_true hex

/-- At the top level the statements before add nothing to what is bound everywhere. -/
theorem isBound_topLevel_iff {before rest : List Stmt} (hsplit : m.statements = before ++ rest) :
    (scopeAfter m.globals .topLevel m.globals.scope.push before).isBound name = true ↔
      m.BindsGlobally name := by
  rw [isBound_scopeAfter_iff, Scope.isBound_push, isBound_globals_iff, or_iff_right_iff_imp]
  intro h
  obtain ⟨a, hmem, _, hname⟩ := h
  exact Or.inl ⟨a, by rw [hsplit]; exact List.mem_append_left _ hmem, hname⟩

theorem isBound_body_iff {returns? : Option Ty} {decl : FunctionDecl} {before : List Stmt} :
    (scopeAfter m.globals (.body returns?) (decl.bodyScope m.globals) before).isBound name = true ↔
      (∃ param ∈ decl.params, param.name.name = name) ∨
        (∃ a, .assign a ∈ before ∧ a.target.name = name) ∨ m.BindsGlobally name := by
  rw [isBound_scopeAfter_iff, isBound_bodyScope_iff, isBound_globals_iff, or_left_comm]
  simp [Assignment.isRedefinition]

/-! ## What a module reports -/

/-- What is wrong with the declarations says nothing of the names in expressions. -/
theorem unresolved_not_mem_globals_findings : use.unresolved ident ∉ m.globals.findings m := by
  intro h
  rcases kind_of_mem_globals_findings h with
    ⟨_, _, h⟩ | ⟨_, _, h⟩ | ⟨_, _, _, h⟩ | ⟨_, _, _, h⟩ <;>
      cases use <;> exact Diagnostic.noConfusion h

/-- Each use of a name that means nothing at its statement is reported, and no other one. -/
theorem unresolved_mem_diagnostics_iff :
    use.unresolved ident ∈ (check w m).diagnostics ↔
      ∃ Bound e, m.Occurs Bound e ∧ e.Uses use ident ∧ ¬ Bound ident.name := by
  rw [mem_diagnostics_iff, or_iff_right unresolved_not_mem_globals_findings,
    mem_findingsOfItems_iff]
  constructor
  · intro h
    rcases h with ⟨decl, hdecl, h⟩ | h
    · obtain ⟨before, stmt, after, hsplit, h⟩ := mem_findingsOfBody_iff.mp h
      obtain ⟨e, he, huses, hunbound⟩ := Stmt.unresolved_mem_findings_iff.mp h
      rw [← Bool.not_eq_true, isBound_body_iff] at hunbound
      exact ⟨_, e, .body (mem_functions_iff_mem_items.mp hdecl) hsplit he, huses, hunbound⟩
    · obtain ⟨before, stmt, after, hsplit, h⟩ := mem_findingsOfBody_iff.mp h
      have hstatements : m.statements = before ++ stmt :: after := hsplit
      obtain ⟨e, he, huses, hunbound⟩ := Stmt.unresolved_mem_findings_iff.mp h
      rw [← Bool.not_eq_true, isBound_topLevel_iff hstatements] at hunbound
      exact ⟨_, e, .topLevel (by rw [hstatements]; simp) he, huses, hunbound⟩
  · intro h
    obtain ⟨Bound, e, hoccurs, huses, hunbound⟩ := h
    cases hoccurs with
    | topLevel hmem he =>
      obtain ⟨before, after, hsplit⟩ := List.append_of_mem hmem
      refine Or.inr (mem_findingsOfBody_iff.mpr ⟨before, _, after, hsplit, ?_⟩)
      refine Stmt.unresolved_mem_findings_iff.mpr ⟨e, he, huses, ?_⟩
      rwa [← Bool.not_eq_true, isBound_topLevel_iff hsplit]
    | @body decl before after stmt _ hmem hsplit he =>
      refine Or.inl ⟨decl, mem_functions_iff_mem_items.mpr hmem, ?_⟩
      refine mem_findingsOfBody_iff.mpr ⟨before, stmt, after, hsplit, ?_⟩
      refine Stmt.unresolved_mem_findings_iff.mpr ⟨e, he, huses, ?_⟩
      rwa [← Bool.not_eq_true, isBound_body_iff]

/-- Names and callees that mean nothing are reported exactly, and each once. -/
theorem unresolved_reported_iff (w : Widening) (m : Module) (name : String) (span : Span) :
    (.undefinedName name span ∈ (check w m).diagnostics ↔
      ∃ Bound e, m.Occurs Bound e ∧ e.Contains (.name ⟨name, span⟩) ∧ ¬ Bound name) ∧
    (.unknownCallable name span ∈ (check w m).diagnostics ↔
      ∃ Bound e, m.Occurs Bound e ∧ (∃ args place, e.Contains (.call ⟨name, span⟩ args place)) ∧
        ¬ Bound name) ∧
    (check w m).diagnostics.count (.undefinedName name span) ≤ 1 ∧
    (check w m).diagnostics.count (.unknownCallable name span) ≤ 1 := by
  have hcount := List.nodup_iff_count_le_one.mp (nodup_diagnostics w m)
  refine ⟨?_, ?_, hcount _, hcount _⟩
  · exact @unresolved_mem_diagnostics_iff w m .value ⟨name, span⟩
  · exact @unresolved_mem_diagnostics_iff w m .callee ⟨name, span⟩

end Module

end Conform
