import Conform.Proofs.Calls

/-!
# Where a finding is made

The walks over expressions and statements collect their findings from the places where these are
made. `Expr.Gives` has a rule for each kind of finding at an expression itself, `Stmt.Gives` one for
each at a statement, and **what is found is what the rules give at some place of the tree**
(`Stmt.mem_findings_iff`, `Module.mem_diagnostics_iff_gives`). A fact about all findings is then
proved rule by rule, with no walk in sight.
-/

namespace Conform

variable {w : Widening} {scope : Scope} {d : Diagnostic}

/-! ## Calls -/

theorem mem_calleeFindings_iff {callee : Ident} :
    d ∈ calleeFindings scope callee ↔
      (∃ ty, scope.callable? callee.name = none ∧ scope.local? callee.name = some (.typed ty) ∧
        d = .notCallable callee.name ty.render callee.span) ∨
      scope.isBound callee.name = false ∧ d = .unknownCallable callee.name callee.span := by
  have hbound : ∀ binding, scope.local? callee.name = some binding →
      scope.isBound callee.name = true := fun _ => Scope.isBound_of_local?
  unfold calleeFindings
  cases hcallable : scope.callable? callee.name with
  | some signature => simp [Scope.isBound_of_callable? hcallable]
  | none =>
    cases hlocal : scope.local? callee.name with
    | none => cases scope.isBound callee.name <;> simp
    | some binding => cases binding <;> simp [hbound _ hlocal]

theorem mem_callFindings_iff {callee : Ident} {args : List Expr} {span : Span}
    {context? : Option Ty} :
    d ∈ callFindings w scope callee args span context? ↔
      ∃ signature, scope.callable? callee.name = some signature ∧
        ∃ fault ∈ signature.faults w scope args context?,
          d = fault.diagnostic scope callee signature span := by
  unfold callFindings
  cases scope.callable? callee.name with
  | none => simp
  | some signature => simp [List.mem_map, eq_comm]

/-! ## Expressions -/

namespace Expr

/-- What is found at an expression itself, its parts left out, where `context?` is expected of
it. -/
inductive Gives (w : Widening) (scope : Scope) : Option Ty → Expr → Diagnostic → Prop
  | undefinedName {context? : Option Ty} {ident : Ident}
      (hunbound : scope.isBound ident.name = false) :
      Gives w scope context? (.name ident) (.undefinedName ident.name ident.span)
  | unknownCallable {context? : Option Ty} {callee : Ident} {args : List Expr} {span : Span}
      (hunbound : scope.isBound callee.name = false) :
      Gives w scope context? (.call callee args span) (.unknownCallable callee.name callee.span)
  | notCallable {context? : Option Ty} {callee : Ident} {args : List Expr} {span : Span} {ty : Ty}
      (hcallable : scope.callable? callee.name = none)
      (hlocal : scope.local? callee.name = some (.typed ty)) :
      Gives w scope context? (.call callee args span)
        (.notCallable callee.name ty.render callee.span)
  | fault {context? : Option Ty} {callee : Ident} {args : List Expr} {span : Span}
      {signature : Signature} {fault : CallFault}
      (hsignature : scope.callable? callee.name = some signature)
      (hfault : fault ∈ signature.faults w scope args context?) :
      Gives w scope context? (.call callee args span)
        (fault.diagnostic scope callee signature span)
  | value {expected : Ty} {e : Expr} {cause : Mismatch}
      (hcall : ∀ callee args span, e ≠ .call callee args span)
      (hcause : expected.valueMismatch? w scope e = some cause) :
      Gives w scope (some expected) e (.mismatch expected (e.describe scope) cause e.span)

variable {e : Expr} {expected? : Option Ty}

/-- What is expected of an expression other than a call adds that it is not accepted, and nothing
else. -/
theorem mem_findingsIn_of_not_call (hcall : ∀ callee args span, e ≠ .call callee args span) :
    d ∈ e.findingsIn w scope expected? ↔
      d ∈ e.findings w scope ∨ ∃ expected cause, expected? = some expected ∧
        expected.valueMismatch? w scope e = some cause ∧
        d = .mismatch expected (e.describe scope) cause e.span := by
  cases expected? with
  | none => simp [findingsIn]
  | some expected =>
    rcases findingsAt_eq w scope expected e with ⟨callee, args, span, rfl, _⟩ | ⟨_, heq⟩
    · exact absurd rfl (hcall callee args span)
    · rw [findingsIn, heq, List.mem_append, Option.mem_toList, Option.map_eq_some_iff]
      simp [eq_comm (b := d)]

theorem gives_or_mem_of_not_call (hcall : ∀ callee args span, e ≠ .call callee args span)
    (h : d ∈ e.findingsIn w scope expected?) :
    e.Gives w scope expected? d ∨ d ∈ e.findings w scope := by
  rcases (mem_findingsIn_of_not_call hcall).mp h with h | ⟨expected, cause, rfl, hcause, rfl⟩
  · exact Or.inr h
  · exact Or.inl (.value hcall hcause)

/-- A finding in an expression is made at a part of it. -/
theorem exists_gives_of_mem (h : d ∈ e.findingsIn w scope expected?) :
    ∃ context? part, e.Holds expected? context? part ∧ part.Gives w scope context? d := by
  -- Of the parts of a dict or call nothing is expected, whatever is expected of itself.
  induction e using induct generalizing expected? with
  | scalar kind span =>
    rcases gives_or_mem_of_not_call (by simp) h with hgives | h
    · exact ⟨_, _, .refl _ _, hgives⟩
    · exact absurd h (by simp [findings])
  | dict entries span ih =>
    rcases gives_or_mem_of_not_call (by simp) h with hgives | h
    · exact ⟨_, _, .refl _ _, hgives⟩
    · rw [findings, findingsEntries_eq_flatMap] at h
      obtain ⟨entry, hmem, hd⟩ := List.mem_flatMap.mp h
      obtain ⟨context?, part, hholds, hgives⟩ := @ih entry hmem none hd
      exact ⟨context?, part, .value hmem hholds, hgives⟩
  | call callee args span ih =>
    rw [findingsIn_call, List.mem_append, List.mem_append, mem_calleeFindings_iff,
      mem_callFindings_iff, List.mem_flatMap] at h
    rcases h with (hcallee | ⟨arg, hmem, hd⟩) | ⟨signature, hsignature, fault, hfault, rfl⟩
    · rcases hcallee with ⟨ty, hcallable, hlocal, rfl⟩ | ⟨hunbound, rfl⟩
      · exact ⟨_, _, .refl _ _, .notCallable hcallable hlocal⟩
      · exact ⟨_, _, .refl _ _, .unknownCallable hunbound⟩
    · obtain ⟨context?, part, hholds, hgives⟩ := @ih arg hmem none hd
      exact ⟨context?, part, .arg hmem hholds, hgives⟩
    · exact ⟨_, _, .refl _ _, .fault hsignature hfault⟩
  | name ident =>
    rcases gives_or_mem_of_not_call (by simp) h with hgives | h
    · exact ⟨_, _, .refl _ _, hgives⟩
    · rw [findings] at h
      split at h
      · exact absurd h (by simp)
      · next hunbound =>
        rw [List.mem_singleton] at h
        subst h
        exact ⟨_, _, .refl _ _, .undefinedName (by simpa using hunbound)⟩

/-- A finding made at an expression is found in it. -/
theorem Gives.mem {context? : Option Ty} (h : e.Gives w scope context? d) :
    d ∈ e.findingsIn w scope context? := by
  cases h with
  | undefinedName hunbound =>
    refine (mem_findingsIn_of_not_call fun _ _ _ => by simp).mpr (Or.inl ?_)
    simp [findings, hunbound]
  | unknownCallable hunbound =>
    rw [findingsIn_call]
    exact List.mem_append_left _ (List.mem_append_left _
      (mem_calleeFindings_iff.mpr (Or.inr ⟨hunbound, rfl⟩)))
  | notCallable hcallable hlocal =>
    rw [findingsIn_call]
    exact List.mem_append_left _ (List.mem_append_left _
      (mem_calleeFindings_iff.mpr (Or.inl ⟨_, hcallable, hlocal, rfl⟩)))
  | fault hsignature hfault =>
    rw [findingsIn_call]
    exact List.mem_append_right _ (mem_callFindings_iff.mpr ⟨_, hsignature, _, hfault, rfl⟩)
  | value hcall hcause =>
    exact (mem_findingsIn_of_not_call hcall).mpr (Or.inr ⟨_, _, rfl, hcause, rfl⟩)

theorem Holds.contains {context? : Option Ty} {part : Expr}
    (h : e.Holds expected? context? part) : e.Contains part := by
  induction h with
  | refl _ e => exact .refl e
  | value hmem _ ih => exact .value hmem ih
  | arg hmem _ ih => exact .arg hmem ih

/-- Of a proper part no type is expected. -/
theorem Holds.context_eq {context? : Option Ty} {part : Expr}
    (h : e.Holds expected? context? part) : context? = expected? ∨ context? = none := by
  induction h with
  | refl _ _ => exact Or.inl rfl
  | value _ _ ih => exact Or.inr (ih.elim id id)
  | arg _ _ ih => exact Or.inr (ih.elim id id)

end Expr

/-! ## Statements -/

namespace Stmt

/-- What is found at a statement: in the expression that it evaluates, or at itself. A `return`
without a value in a function returns `None`, which stands nowhere in the module. -/
inductive Gives (w : Widening) (g : Globals) (place : Place) (scope : Scope) :
    Stmt → Diagnostic → Prop
  | evaluated {stmt : Stmt} {e part : Expr} {context? : Option Ty} {d : Diagnostic}
      (hevaluates : stmt.Evaluates e)
      (hholds : e.Holds (stmt.expected? g place scope) context? part)
      (h : part.Gives w scope context? d) : Gives w g place scope stmt d
  | bareReturn {returns : Ty} {span : Span} {cause : Mismatch}
      (hplace : place = .body (some returns))
      (hcause : returns.valueMismatch? w scope (.scalar .none span) = some cause) :
      Gives w g place scope (.ret none span)
        (.mismatch returns ((Expr.scalar .none span).describe scope) cause span)
  | outside {value? : Option Expr} {span : Span} (hplace : place = .topLevel) :
      Gives w g place scope (.ret value? span) (.returnOutsideFunction span)
  | unknownType {a : Assignment} {d : Diagnostic} (hredef : a.isRedefinition g place = false)
      (h : d ∈ a.unknown g.records) : Gives w g place scope (.assign a) d

variable {g : Globals} {place : Place} {stmt : Stmt}

/-- A finding at a statement is made by one of the rules. -/
theorem gives_of_mem (h : d ∈ stmt.findings w g place scope) : stmt.Gives w g place scope d := by
  have hvalue : ∀ {e : Expr}, stmt.Evaluates e →
      d ∈ e.findingsIn w scope (stmt.expected? g place scope) → stmt.Gives w g place scope d := by
    intro e hevaluates hd
    obtain ⟨context?, part, hholds, hgives⟩ := Expr.exists_gives_of_mem hd
    exact .evaluated hevaluates hholds hgives
  cases stmt with
  | expr value => exact hvalue (.expr value) h
  | ret value? span =>
    cases place with
    | topLevel =>
      rcases List.mem_cons.mp h with rfl | h
      · exact .outside rfl
      · cases value? with
        | none => exact absurd h (by simp)
        | some value => exact hvalue (.ret value span) h
    | body returns? =>
      cases value? with
      | some value => exact hvalue (.ret value span) h
      | none =>
        obtain ⟨context?, part, hholds, hgives⟩ := Expr.exists_gives_of_mem h
        cases hholds with
        | refl =>
          cases hgives with
          | value _ hcause => exact .bareReturn rfl hcause
  | assign a =>
    rw [findings] at h
    split at h
    · next hredef =>
      refine hvalue (.assign a) ?_
      rw [expected?, if_pos hredef]
      exact h
    · next hredef =>
      rcases List.mem_append.mp h with h | h
      · exact .unknownType (by simpa using hredef) h
      · refine hvalue (.assign a) ?_
        rw [expected?, if_neg hredef]
        exact h

/-- What is found at a statement is what the rules give. -/
theorem mem_findings_iff :
    d ∈ stmt.findings w g place scope ↔ stmt.Gives w g place scope d := by
  constructor
  · exact gives_of_mem
  · intro h
    cases h with
    | evaluated hevaluates hholds h =>
      exact findings_subset_of_evaluates hevaluates (hholds.findings_subset h.mem)
    | bareReturn hplace hcause =>
      subst hplace
      exact (Expr.Gives.value (fun _ _ _ => by simp) hcause).mem
    | outside hplace =>
      subst hplace
      exact List.mem_cons_self
    | unknownType hredef h =>
      rw [findings, if_neg (by simp [hredef])]
      exact List.mem_append_left _ h

end Stmt

/-! ## Modules -/

/-- A finding on a module is made in its declarations or at a statement that is reached. -/
theorem Module.mem_diagnostics_iff_gives {m : Module} :
    d ∈ (check w m).diagnostics ↔ d ∈ m.globals.findings m ∨
      ∃ place scope stmt, m.Reaches place scope stmt ∧ stmt.Gives w m.globals place scope d := by
  simp only [mem_diagnostics_iff_reaches, Stmt.mem_findings_iff]

end Conform
