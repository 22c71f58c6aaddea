import Conform.Proofs.Conforms
import Conform.Proofs.Reports

/-!
# Which expressions are used well

`Expr.WellUsed` asks three things of an expression, of all that stands inside it at any depth: every
name means something, every callee means something that can be called, and the arguments of every
call whose callee has a signature are accepted by it.

**Nothing is found in an expression exactly if it is used well** (`findings_eq_nil_iff`), and where
a type is expected of it, exactly if it conforms to that besides (`findingsAt_eq_nil_iff`). The
second does not follow from the first plus the acceptance of a value: a call is judged once, with
its arguments and its result together, and a wrong number of arguments silences both.
-/

namespace Conform

variable {w : Widening} {scope : Scope} {Γ : Context}

/-- A callee means something, and if that is a variable with a type, it can be called. -/
def Context.Callee (Γ : Context) (name : String) : Prop :=
  Γ.Bound name ∧
    ∀ ty, Γ.Variable name (.typed ty) → ∃ signature, ty.signature? = some signature

/-- The arguments of a call are as many as the parameters, and each is accepted for its own. -/
def Context.Arguments (w : Widening) (Γ : Context) (callee : String) (args : List Expr) : Prop :=
  ∀ signature, Γ.Callable callee signature →
    List.Forall₂ (fun param arg => Conforms w Γ param.ty arg) signature.params args

/-- Every name and every call inside an expression is used as what it means. -/
structure Expr.WellUsed (w : Widening) (Γ : Context) (e : Expr) : Prop where
  names : ∀ ident, e.Contains (.name ident) → Γ.Bound ident.name
  callees : ∀ callee args span, e.Contains (.call callee args span) → Γ.Callee callee.name
  arguments : ∀ callee args span, e.Contains (.call callee args span) →
    Γ.Arguments w callee.name args

/-! ## Being used well, by the form of the expression -/

namespace Expr

/-- Of an expression that is used well, so is every part. -/
theorem WellUsed.part {e part : Expr} (h : e.WellUsed w Γ)
    (hpart : ∀ inner, part.Contains inner → e.Contains inner) : part.WellUsed w Γ where
  names ident hident := h.names ident (hpart _ hident)
  callees callee args span hcall := h.callees callee args span (hpart _ hcall)
  arguments callee args span hcall := h.arguments callee args span (hpart _ hcall)

theorem wellUsed_scalar (kind : Scalar) (span : Span) : WellUsed w Γ (.scalar kind span) where
  names := fun _ h => nomatch h
  callees := fun _ _ _ h => nomatch h
  arguments := fun _ _ _ h => nomatch h

theorem wellUsed_name_iff {ident : Ident} : WellUsed w Γ (.name ident) ↔ Γ.Bound ident.name := by
  constructor
  · intro h
    exact h.names ident (.refl _)
  · intro h
    refine ⟨fun other hother => ?_, fun _ _ _ hcall => ?_, fun _ _ _ hcall => ?_⟩
    · cases hother with
      | refl => exact h
    · exact nomatch hcall
    · exact nomatch hcall

theorem wellUsed_dict_iff {entries : List (Entry Expr)} {span : Span} :
    WellUsed w Γ (.dict entries span) ↔ ∀ entry ∈ entries, WellUsed w Γ entry.value := by
  constructor
  · intro h entry hmem
    exact h.part fun _ hinner => .value hmem hinner
  · intro h
    refine ⟨fun ident hident => ?_, fun callee args span hcall => ?_,
      fun callee args span hcall => ?_⟩
    · cases hident with
      | value hmem hident => exact (h _ hmem).names ident hident
    · cases hcall with
      | value hmem hcall => exact (h _ hmem).callees callee args span hcall
    · cases hcall with
      | value hmem hcall => exact (h _ hmem).arguments callee args span hcall

theorem wellUsed_call_iff {callee : Ident} {args : List Expr} {span : Span} :
    WellUsed w Γ (.call callee args span) ↔
      Γ.Callee callee.name ∧ Γ.Arguments w callee.name args ∧ ∀ arg ∈ args, WellUsed w Γ arg := by
  constructor
  · intro h
    refine ⟨h.callees _ _ _ (.refl _), h.arguments _ _ _ (.refl _), fun arg hmem => ?_⟩
    exact h.part fun _ hinner => .arg hmem hinner
  · intro h
    obtain ⟨hcallee, harguments, hargs⟩ := h
    refine ⟨fun ident hident => ?_, fun callee args span hcall => ?_,
      fun callee args span hcall => ?_⟩
    · cases hident with
      | arg hmem hident => exact (hargs _ hmem).names ident hident
    · cases hcall with
      | refl => exact hcallee
      | arg hmem hcall => exact (hargs _ hmem).callees callee args span hcall
    · cases hcall with
      | refl => exact harguments
      | arg hmem hcall => exact (hargs _ hmem).arguments callee args span hcall

end Expr

/-! ## Calls -/

theorem calleeFindings_eq_nil_iff (hfits : scope.Fits Γ) {callee : Ident} :
    calleeFindings scope callee = [] ↔ Γ.Callee callee.name := by
  unfold Context.Callee calleeFindings
  simp only [← hfits.isBound_iff, ← hfits.local?]
  cases hlocal : scope.local? callee.name with
  | none =>
    cases hfunction : scope.function? callee.name with
    | none =>
      have hcallable : scope.callable? callee.name = none := by
        simp [Scope.callable?, hlocal, hfunction]
      rw [hcallable]
      cases scope.isBound callee.name <;> simp
    | some entry =>
      have hcallable : scope.callable? callee.name = some entry.value := by
        simp [Scope.callable?, hlocal, hfunction]
      have hbound : scope.isBound callee.name = true := by simp [Scope.isBound, hfunction]
      rw [hcallable, hbound]
      simp
  | some binding =>
    have hbound : scope.isBound callee.name = true := by simp [Scope.isBound, hlocal]
    cases binding with
    | untyped =>
      have hcallable : scope.callable? callee.name = none := by
        simp [Scope.callable?, hlocal, Binding.ty?]
      rw [hcallable, hbound]
      simp
    | typed ty =>
      have hcallable : scope.callable? callee.name = ty.signature? := by
        simp [Scope.callable?, hlocal, Binding.ty?]
      rw [hcallable, hbound]
      cases hsig : ty.signature? <;> simp [hsig]

/-- The arguments of a call, taken side by side with the parameters. -/
theorem arguments_eq_nil_iff (hfits : scope.Fits Γ) {params : List (Param Ty)} {args : List Expr}
    (hlength : args.length = params.length) :
    ((params.zip args).zipIdx.filterMap fun ((param, arg), index) =>
        (param.ty.valueMismatch? w scope arg).map (CallFault.argument index param arg)) = [] ↔
      List.Forall₂ (fun param arg => Conforms w Γ param.ty arg) params args := by
  rw [List.filterMap_eq_nil_iff, List.forall₂_iff_get]
  simp only [Option.map_eq_none_iff, valueMismatch?_eq_none_iff hfits]
  rw [forall_mem_zip_zipIdx_iff (fun param arg => Conforms w Γ param.ty arg) params args]
  constructor
  · intro h
    exact ⟨hlength.symm, h⟩
  · intro h
    exact h.2

/-- What is wrong with a call: the number of its arguments, or else an argument or the result. -/
theorem mem_faults_iff {signature : Signature} {args : List Expr} {context? : Option Ty}
    {fault : CallFault} :
    fault ∈ signature.faults w scope args context? ↔
      (args.length ≠ signature.arity ∧ fault = .arity signature.arity args.length) ∨
      args.length = signature.arity ∧
        ((∃ (index : Nat) (param : Param Ty) (arg : Expr) (cause : Mismatch),
          signature.params[index]? = some param ∧ args[index]? = some arg ∧
            param.ty.valueMismatch? w scope arg = some cause ∧
            fault = .argument index param arg cause) ∨
        ∃ context cause, context? = some context ∧
          context.mismatch? w signature.returns = some cause ∧ fault = .result context cause) := by
  unfold Signature.faults
  by_cases hlength : args.length = signature.arity
  · have harguments : (fault ∈ (signature.params.zip args).zipIdx.filterMap
          fun ((param, arg), index) =>
            (param.ty.valueMismatch? w scope arg).map (.argument index param arg)) ↔
        ∃ (index : Nat) (param : Param Ty) (arg : Expr) (cause : Mismatch),
          signature.params[index]? = some param ∧ args[index]? = some arg ∧
            param.ty.valueMismatch? w scope arg = some cause ∧
            fault = .argument index param arg cause := by
      simp only [List.mem_filterMap, Prod.exists, List.mem_zipIdx_iff_getElem?,
        List.getElem?_zip_eq_some, Option.map_eq_some_iff, and_assoc, eq_comm (b := fault)]
      constructor
      · intro h
        obtain ⟨param, arg, index, hparam, harg, cause, hcause, hfault⟩ := h
        exact ⟨index, param, arg, cause, hparam, harg, hcause, hfault⟩
      · intro h
        obtain ⟨index, param, arg, cause, hparam, harg, hcause, hfault⟩ := h
        exact ⟨param, arg, index, hparam, harg, cause, hcause, hfault⟩
    have hresult : (fault ∈ (context?.bind fun context =>
          (context.mismatch? w signature.returns).map (CallFault.result context)).toList) ↔
        ∃ context cause, context? = some context ∧
          context.mismatch? w signature.returns = some cause ∧ fault = .result context cause := by
      simp [Option.mem_toList, Option.bind_eq_some_iff, eq_comm (b := fault)]
    rw [if_pos hlength, List.mem_append, harguments, hresult]
    simp [hlength]
  · rw [if_neg hlength, List.mem_singleton]
    simp [hlength]

/-- What is found in the arguments and the result of a call. -/
theorem callFindings_eq_nil_iff (hfits : scope.Fits Γ) {callee : Ident} {args : List Expr}
    {span : Span} {context? : Option Ty} :
    callFindings w scope callee args span context? = [] ↔
      Γ.Arguments w callee.name args ∧
        ∀ expected, context? = some expected → ∀ signature, Γ.Callable callee.name signature →
          Assignable w expected signature.returns := by
  unfold callFindings Context.Arguments
  simp only [← hfits.callable?_iff]
  cases scope.callable? callee.name with
  | none => simp
  | some signature =>
    simp only [List.map_eq_nil_iff, Option.some.injEq, forall_eq']
    unfold Signature.faults Signature.arity
    by_cases hlength : args.length = signature.params.length
    · rw [if_pos hlength, List.append_eq_nil_iff, arguments_eq_nil_iff hfits hlength]
      refine and_congr_right fun _ => ?_
      cases context? with
      | none => simp
      | some expected => simp [mismatch?_eq_none_iff]
    · rw [if_neg hlength]
      constructor
      · intro h
        exact absurd h (by simp)
      · intro h
        exact absurd h.1.length_eq.symm hlength

/-! ## Expressions -/

namespace Expr

theorem flatMap_findings_eq_nil_iff {es : List Expr}
    (ih : ∀ e ∈ es, e.findings w scope = [] ↔ e.WellUsed w Γ) :
    (es.flatMap fun e => e.findings w scope) = [] ↔ ∀ e ∈ es, e.WellUsed w Γ := by
  rw [List.flatMap_eq_nil_iff]
  exact forall₂_congr ih

/-- Nothing is found in an expression exactly if it is used well. -/
theorem findings_eq_nil_iff (hfits : scope.Fits Γ) {e : Expr} :
    e.findings w scope = [] ↔ e.WellUsed w Γ := by
  induction e using induct with
  | scalar kind span => simp [findings, wellUsed_scalar]
  | dict entries span ih =>
    rw [findings, findingsEntries_eq_flatMap, List.flatMap_eq_nil_iff, wellUsed_dict_iff]
    exact forall₂_congr ih
  | call callee args span ih =>
    rw [findings, findingsAll_eq_flatMap, List.append_eq_nil_iff, List.append_eq_nil_iff,
      calleeFindings_eq_nil_iff hfits, flatMap_findings_eq_nil_iff ih,
      callFindings_eq_nil_iff hfits, wellUsed_call_iff]
    constructor
    · intro h
      obtain ⟨⟨hcallee, hargs⟩, harguments, _⟩ := h
      exact ⟨hcallee, harguments, hargs⟩
    · intro h
      obtain ⟨hcallee, harguments, hargs⟩ := h
      refine ⟨⟨hcallee, hargs⟩, harguments, ?_⟩
      intro expected hexpected
      cases hexpected
  | name ident =>
    rw [findings, wellUsed_name_iff, ← hfits.isBound_iff]
    cases scope.isBound ident.name <;> simp

/-- Where a type is expected, nothing is found exactly if the expression conforms to it besides. -/
theorem findingsAt_eq_nil_iff (hfits : scope.Fits Γ) {expected : Ty} {e : Expr} :
    e.findingsAt w scope expected = [] ↔ e.WellUsed w Γ ∧ Conforms w Γ expected e := by
  rcases findingsAt_eq w scope expected e with ⟨callee, args, span, rfl, heq⟩ | ⟨_, heq⟩
  · rw [heq, List.append_eq_nil_iff, List.append_eq_nil_iff, calleeFindings_eq_nil_iff hfits,
      flatMap_findings_eq_nil_iff fun _ _ => findings_eq_nil_iff hfits,
      callFindings_eq_nil_iff hfits, wellUsed_call_iff]
    -- A call is judged once, its result together with its arguments.
    constructor
    · intro h
      obtain ⟨⟨hcallee, hargs⟩, harguments, hresult⟩ := h
      exact ⟨⟨hcallee, harguments, hargs⟩, .call (hresult expected rfl)⟩
    · intro h
      obtain ⟨⟨hcallee, harguments, hargs⟩, hconforms⟩ := h
      refine ⟨⟨hcallee, hargs⟩, harguments, fun other hother => ?_⟩
      cases hother
      cases hconforms with
      | call hresult => exact hresult
  · rw [heq, List.append_eq_nil_iff, findings_eq_nil_iff hfits, ← valueMismatch?_eq_none_iff hfits]
    simp

theorem findingsIn_eq_nil_iff (hfits : scope.Fits Γ) {expected? : Option Ty} {e : Expr} :
    e.findingsIn w scope expected? = [] ↔
      e.WellUsed w Γ ∧ ∀ expected, expected? = some expected → Conforms w Γ expected e := by
  cases expected? with
  | none =>
    rw [findingsIn, findings_eq_nil_iff hfits]
    simp
  | some expected =>
    rw [findingsIn, findingsAt_eq_nil_iff hfits]
    simp

end Expr

end Conform
