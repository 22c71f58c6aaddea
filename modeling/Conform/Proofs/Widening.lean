import Conform.Proofs.Order
import Conform.Proofs.Statements

/-!
# Wider tables

A table of widening rules may be replaced by one that admits more. What that does to a check can be
said without looking at the rules: the scope is the same, **everything but mismatches is found as
before and in the same order, and every mismatch that is left was a mismatch before** — of the same
value, shown the same, where the same type is expected (`check_widened`). Its reason and its path
may be others. Only the first reason against a value is ever given, and once that one is admitted
the next one shows.

Two things carry the proof. Acceptance is monotone (`Assignable.widened`, `Conforms.widened`): the
rules for callables let the two types change places, but they ask the table the same question on
both sides, so no rule turns it around. And two runs are compared list by list, by a relation that
goes through every way in which findings are put together (`Relaxed`).
-/

namespace Conform

variable {w w' : Widening}

/-- Whatever one table admits is admitted by the other. -/
def Widening.Within (w w' : Widening) : Prop :=
  ∀ actual expected, w.permits actual expected = true → w'.permits actual expected = true

/-- A rule that is added takes none away. -/
theorem Widening.within_insert (w : Widening) (source target : Scalar) :
    w.Within (w.insert source target) :=
  fun actual expected h => (w.permits_insert source target actual expected).mpr (Or.inl h)

/-! ## Acceptance under a wider table -/

theorem Assignable.widened (h : w.Within w') {expected actual : Ty}
    (hassignable : Assignable w expected actual) : Assignable w' expected actual := by
  induction hassignable with
  | scalar hpermits => exact .scalar (h _ _ hpermits)
  | record hrequired _ ih => exact .record hrequired ih
  | callable harity _ _ ihParams ihReturns => exact .callable harity ihParams ihReturns

theorem Conforms.widened (h : w.Within w') {Γ : Context} {expected : Ty} {e : Expr}
    (hconforms : Conforms w Γ expected e) : Conforms w' Γ expected e := by
  induction hconforms with
  | name hvalue => exact .name fun ty hty => (hvalue ty hty).widened h
  | call hcallable => exact .call fun signature hsig => (hcallable signature hsig).widened h
  | scalar hpermits => exact .scalar (h _ _ hpermits)
  | dict hrequired _ hextra ih => exact .dict hrequired ih hextra

/-- A type that the wider table refuses is refused by the other one. -/
theorem exists_mismatch?_of_within (h : w.Within w') {expected actual : Ty} {cause : Mismatch}
    (hcause : expected.mismatch? w' actual = some cause) :
    ∃ cause, expected.mismatch? w actual = some cause := by
  rw [← Option.ne_none_iff_exists', Ne, mismatch?_eq_none_iff]
  intro hassignable
  rw [mismatch?_eq_none_iff.mpr (hassignable.widened h)] at hcause
  exact absurd hcause (by simp)

theorem exists_valueMismatch?_of_within (h : w.Within w') {scope : Scope} {expected : Ty}
    {e : Expr} {cause : Mismatch} (hcause : expected.valueMismatch? w' scope e = some cause) :
    ∃ cause, expected.valueMismatch? w scope e = some cause := by
  have hfits := scope.fits_context
  rw [← Option.ne_none_iff_exists', Ne, valueMismatch?_eq_none_iff hfits]
  intro hconforms
  rw [(valueMismatch?_eq_none_iff hfits).mpr (hconforms.widened h)] at hcause
  exact absurd hcause (by simp)

/-! ## Findings of two runs -/

/-- Whether a finding is that something is not accepted where a type is expected. -/
def Diagnostic.isMismatch : Diagnostic → Bool
  | .mismatch .. => true
  | _ => false

/-- The second findings are the first ones with some mismatches dropped or given for another
reason. -/
structure Relaxed (ds ds' : List Diagnostic) : Prop where
  others : (ds'.filter fun d => !d.isMismatch) = ds.filter fun d => !d.isMismatch
  mismatches : ∀ expected found cause span, .mismatch expected found cause span ∈ ds' →
    ∃ cause, .mismatch expected found cause span ∈ ds

namespace Relaxed

theorem refl (ds : List Diagnostic) : Relaxed ds ds where
  others := rfl
  mismatches := fun _ _ cause _ h => ⟨cause, h⟩

theorem append {as as' bs bs' : List Diagnostic} (h : Relaxed as as') (h' : Relaxed bs bs') :
    Relaxed (as ++ bs) (as' ++ bs') where
  others := by rw [List.filter_append, List.filter_append, h.others, h'.others]
  mismatches := by
    intro expected found cause span hmem
    rcases List.mem_append.mp hmem with hmem | hmem
    · obtain ⟨cause, hmem⟩ := h.mismatches _ _ _ _ hmem
      exact ⟨cause, List.mem_append_left _ hmem⟩
    · obtain ⟨cause, hmem⟩ := h'.mismatches _ _ _ _ hmem
      exact ⟨cause, List.mem_append_right _ hmem⟩

theorem flatMap {α : Type} {f f' : α → List Diagnostic} {items : List α}
    (h : ∀ a ∈ items, Relaxed (f a) (f' a)) : Relaxed (items.flatMap f) (items.flatMap f') := by
  induction items with
  | nil => exact refl []
  | cons a rest ih =>
    rw [List.flatMap_cons, List.flatMap_cons]
    exact (h a List.mem_cons_self).append (ih fun b hb => h b (List.mem_cons_of_mem _ hb))

/-- Where nothing but mismatches is found, there is no order to keep. -/
theorem of_mismatches {ds ds' : List Diagnostic} (h : ∀ d ∈ ds, d.isMismatch = true)
    (h' : ∀ d ∈ ds', d.isMismatch = true)
    (hmem : ∀ expected found cause span, .mismatch expected found cause span ∈ ds' →
      ∃ cause, .mismatch expected found cause span ∈ ds) : Relaxed ds ds' where
  others := by
    have hnil : ∀ ds : List Diagnostic, (∀ d ∈ ds, d.isMismatch = true) →
        (ds.filter fun d => !d.isMismatch) = [] := by
      intro ds hall
      rw [List.filter_eq_nil_iff]
      intro d hd
      simp [hall d hd]
    rw [hnil ds h, hnil ds' h']
  mismatches := hmem

theorem eraseDups {ds ds' : List Diagnostic} (h : Relaxed ds ds') :
    Relaxed ds.eraseDups ds'.eraseDups where
  others := by rw [filter_eraseDups, filter_eraseDups, h.others]
  mismatches := by
    intro expected found cause span hmem
    obtain ⟨cause, hmem⟩ := h.mismatches _ _ _ _ (List.mem_eraseDups.mp hmem)
    exact ⟨cause, List.mem_eraseDups.mpr hmem⟩

/-- Where nothing was found, nothing is found under a wider table. -/
theorem eq_nil {ds' : List Diagnostic} (h : Relaxed [] ds') : ds' = [] := by
  rw [List.eq_nil_iff_forall_not_mem]
  intro d hd
  cases hkind : d.isMismatch with
  | true =>
    cases d with
    | mismatch expected found cause span =>
      obtain ⟨_, hmem⟩ := h.mismatches _ _ _ _ hd
      exact absurd hmem (by simp)
    | _ => exact absurd hkind (by simp [Diagnostic.isMismatch])
  | false =>
    have hmem : d ∈ ds'.filter fun d => !d.isMismatch := List.mem_filter.mpr ⟨hd, by simp [hkind]⟩
    rw [h.others] at hmem
    exact absurd hmem (by simp)

end Relaxed

/-! ## Expressions -/

section

variable (h : w.Within w') {scope : Scope}

include h

/-- What is wrong with a call under the wider table was wrong with it before, in the same place. -/
theorem exists_fault_of_within {signature : Signature} {args : List Expr} {context? : Option Ty}
    {fault : CallFault} (hfault : fault ∈ signature.faults w' scope args context?) :
    ∃ before ∈ signature.faults w scope args context?, ∀ callee span,
      ∃ expected found place, fault.diagnostic scope callee signature span =
          .mismatch expected found fault.mismatch place ∧
        before.diagnostic scope callee signature span =
          .mismatch expected found before.mismatch place := by
  rcases mem_faults_iff.mp hfault with ⟨harity, rfl⟩ | ⟨hlength, harg | hresult⟩
  · refine ⟨_, mem_faults_iff.mpr (Or.inl ⟨harity, rfl⟩), fun _ _ => ?_⟩
    exact ⟨_, _, _, rfl, rfl⟩
  · obtain ⟨index, param, arg, cause, hparam, harg, hcause, rfl⟩ := harg
    obtain ⟨before, hbefore⟩ := exists_valueMismatch?_of_within h hcause
    refine ⟨.argument index param arg before, mem_faults_iff.mpr (Or.inr ⟨hlength, Or.inl ?_⟩),
      fun _ _ => ?_⟩
    · exact ⟨index, param, arg, before, hparam, harg, hbefore, rfl⟩
    · exact ⟨_, _, _, rfl, rfl⟩
  · obtain ⟨context, cause, hcontext, hcause, rfl⟩ := hresult
    obtain ⟨before, hbefore⟩ := exists_mismatch?_of_within h hcause
    refine ⟨.result context before, mem_faults_iff.mpr (Or.inr ⟨hlength, Or.inr ?_⟩),
      fun _ _ => ?_⟩
    · exact ⟨context, before, hcontext, hbefore, rfl⟩
    · exact ⟨_, _, _, rfl, rfl⟩

theorem relaxed_callFindings (callee : Ident) (args : List Expr) (span : Span)
    (context? : Option Ty) :
    Relaxed (callFindings w scope callee args span context?)
      (callFindings w' scope callee args span context?) := by
  have hkind : ∀ (w : Widening), ∀ d ∈ callFindings w scope callee args span context?,
      d.isMismatch = true := by
    intro w d hd
    obtain ⟨_, _, _, _, rfl⟩ := mismatch_of_mem_callFindings hd
    rfl
  refine .of_mismatches (hkind w) (hkind w') ?_
  intro expected found cause place hmem
  unfold callFindings at hmem ⊢
  cases hsignature : scope.callable? callee.name with
  | none =>
    rw [hsignature] at hmem
    exact absurd hmem (by simp)
  | some signature =>
    rw [hsignature] at hmem
    obtain ⟨fault, hfault, hdiagnostic⟩ := List.mem_map.mp hmem
    obtain ⟨before, hbefore, hsame⟩ := exists_fault_of_within h hfault
    obtain ⟨_, _, _, hnow, hthen⟩ := hsame callee span
    rw [hnow] at hdiagnostic
    cases hdiagnostic
    exact ⟨before.mismatch, List.mem_map.mpr ⟨before, hbefore, hthen⟩⟩

namespace Expr

theorem relaxed_findings (e : Expr) : Relaxed (e.findings w scope) (e.findings w' scope) := by
  induction e using induct with
  | scalar kind span =>
    rw [findings, findings]
    exact .refl []
  | dict entries span ih =>
    rw [findings, findings, findingsEntries_eq_flatMap, findingsEntries_eq_flatMap]
    exact .flatMap ih
  | call callee args span ih =>
    rw [findings, findings, findingsAll_eq_flatMap, findingsAll_eq_flatMap]
    exact ((Relaxed.refl _).append (.flatMap ih)).append (relaxed_callFindings h _ _ _ _)
  | name ident =>
    rw [findings, findings]
    exact .refl _

/-- A value that is refused where a type is expected. -/
theorem relaxed_refusal (expected : Ty) (e : Expr) :
    Relaxed
      ((expected.valueMismatch? w scope e).map fun cause =>
        Diagnostic.mismatch expected (e.describe scope) cause e.span).toList
      ((expected.valueMismatch? w' scope e).map fun cause =>
        Diagnostic.mismatch expected (e.describe scope) cause e.span).toList := by
  have hkind : ∀ (cause? : Option Mismatch), ∀ d ∈ (cause?.map fun cause =>
      Diagnostic.mismatch expected (e.describe scope) cause e.span).toList,
      d.isMismatch = true := by
    intro cause? d hd
    obtain ⟨cause, _, rfl⟩ := Option.map_eq_some_iff.mp (Option.mem_toList.mp hd)
    rfl
  refine .of_mismatches (hkind _) (hkind _) ?_
  intro expected found cause place hmem
  obtain ⟨cause, hcause, hdiagnostic⟩ := Option.map_eq_some_iff.mp (Option.mem_toList.mp hmem)
  obtain ⟨before, hbefore⟩ := exists_valueMismatch?_of_within h hcause
  cases hdiagnostic
  refine ⟨before, ?_⟩
  rw [hbefore]
  exact List.mem_singleton_self _

theorem relaxed_findingsAt (expected : Ty) (e : Expr) :
    Relaxed (e.findingsAt w scope expected) (e.findingsAt w' scope expected) := by
  rcases findingsAt_eq w scope expected e with ⟨callee, args, span, rfl, _⟩ | ⟨hne, heq⟩
  · rw [findingsAt, findingsAt, findingsAll_eq_flatMap, findingsAll_eq_flatMap]
    have hargs : Relaxed (args.flatMap fun arg => arg.findings w scope)
        (args.flatMap fun arg => arg.findings w' scope) :=
      .flatMap fun arg _ => relaxed_findings h arg
    exact ((Relaxed.refl _).append hargs).append (relaxed_callFindings h _ _ _ _)
  · rcases findingsAt_eq w' scope expected e with ⟨_, _, _, hcall, _⟩ | ⟨_, heq'⟩
    · exact absurd hcall (hne _ _ _)
    · rw [heq, heq']
      exact (relaxed_findings h e).append (relaxed_refusal h expected e)

theorem relaxed_findingsIn (expected? : Option Ty) (e : Expr) :
    Relaxed (e.findingsIn w scope expected?) (e.findingsIn w' scope expected?) := by
  cases expected? with
  | none => exact relaxed_findings h e
  | some expected => exact relaxed_findingsAt h expected e

end Expr

/-! ## Statements and modules -/

variable {g : Globals} {place : Place}

/-- One statement. The scope that it leaves does not depend on the table. -/
theorem Stmt.relaxed_findings (stmt : Stmt) :
    Relaxed (stmt.findings w g place scope) (stmt.findings w' g place scope) := by
  cases stmt with
  | expr value => exact Expr.relaxed_findings h value
  | ret value? span =>
    cases place with
    | topLevel =>
      refine (Relaxed.refl [.returnOutsideFunction span]).append ?_
      cases value? with
      | none => exact .refl []
      | some value => exact Expr.relaxed_findings h value
    | body returns? => exact Expr.relaxed_findingsIn h returns? _
  | assign a =>
    rw [findings, findings]
    split
    · exact Expr.relaxed_findings h a.value
    · exact (Relaxed.refl _).append (Expr.relaxed_findingsIn h _ a.value)

/-- A run of statements. -/
theorem relaxed_findingsOfBody (stmts : List Stmt) :
    Relaxed (findingsOfBody w g place scope stmts) (findingsOfBody w' g place scope stmts) := by
  induction stmts generalizing scope with
  | nil => exact .refl []
  | cons stmt rest ih => exact (stmt.relaxed_findings h).append ih

theorem relaxed_findingsOfItems (items : List Item) :
    Relaxed (findingsOfItems w g scope items) (findingsOfItems w' g scope items) := by
  induction items generalizing scope with
  | nil => exact .refl []
  | cons item rest ih =>
    cases item with
    | function decl => exact (relaxed_findingsOfBody h decl.body).append ih
    | record decl => exact ih
    | stmt stmt => exact (stmt.relaxed_findings h).append ih

theorem relaxed_diagnostics (m : Module) :
    Relaxed (check w m).diagnostics (check w' m).diagnostics :=
  ((Relaxed.refl _).append (relaxed_findingsOfItems h m.items)).eraseDups

end

namespace Module

/-- A check under a wider table finds the same but for mismatches, and none of those is new. -/
theorem check_widened (h : w.Within w') (m : Module) :
    (check w' m).scope = (check w m).scope ∧
    ((check w' m).diagnostics.filter fun d => !d.isMismatch) =
      ((check w m).diagnostics.filter fun d => !d.isMismatch) ∧
    (∀ expected found cause span,
      .mismatch expected found cause span ∈ (check w' m).diagnostics →
      ∃ cause, .mismatch expected found cause span ∈ (check w m).diagnostics) ∧
    ((check w m).isClean = true → (check w' m).isClean = true) := by
  have hrelaxed := relaxed_diagnostics h m
  refine ⟨rfl, hrelaxed.others, hrelaxed.mismatches, fun hclean => ?_⟩
  rw [Outcome.isClean, List.isEmpty_iff] at hclean ⊢
  rw [hclean] at hrelaxed
  exact hrelaxed.eq_nil

/-- A record of two numbers, and a variable of that type whose value has a `bool` and a `str`. -/
def boolForInt : Module :=
  ⟨[recordItem "Pair" 0 [("a", "int"), ("b", "int")],
    .stmt (.assign ⟨⟨"pair", ⟨2, 3⟩⟩, some (.named ⟨"Pair", ⟨3, 4⟩⟩),
      .dict [⟨"a", .scalar .bool ⟨4, 5⟩, ⟨4, 5⟩⟩, ⟨"b", .scalar .str ⟨5, 6⟩, ⟨5, 6⟩⟩] ⟨4, 6⟩,
      ⟨2, 6⟩⟩)]⟩

/-- That the value of the variable is not accepted, for some reason. -/
def pairRefused (cause : Mismatch) : Diagnostic :=
  .mismatch (.record (some "Pair") [⟨"a", .scalar .int, true⟩, ⟨"b", .scalar .int, true⟩])
    "\x7b\"a\": bool, \"b\": str\x7d" cause ⟨4, 6⟩

/-- Once a `bool` may stand for an `int`, it is the other field that is given as the reason. -/
theorem check_widened_boolForInt :
    Widening.empty.Within (Widening.empty.insert .bool .int) ∧
    pairRefused ⟨.incompatible "int" "str", [.field "b"]⟩ ∈
      (check (Widening.empty.insert .bool .int) boolForInt).diagnostics ∧
    ∃ cause, pairRefused cause ∈ (check .empty boolForInt).diagnostics := by
  have hwithin := Widening.empty.within_insert .bool .int
  have hfound : pairRefused ⟨.incompatible "int" "str", [.field "b"]⟩ ∈
      (check (Widening.empty.insert .bool .int) boolForInt).diagnostics := by
    decide +kernel
  obtain ⟨_, _, hmismatches, _⟩ := check_widened hwithin boolForInt
  exact ⟨hwithin, hfound, hmismatches _ _ _ _ hfound⟩

end Module

end Conform
