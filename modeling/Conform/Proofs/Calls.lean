import Conform.Proofs.Statements

/-!
# What is said of a call

A call is checked in full. Each argument that is not accepted for its parameter gives a mismatch of
its own, and so does the result where the place of the call does not accept it; only a wrong number
of arguments is said alone (`mismatches_of_length_eq`, `mismatches_of_length_ne`).

**What is said of one call is never taken for a repetition** (`check_says_each_mismatch`). The first
step of its path tells one mismatch of a call from the others, and the step is part of what is said,
so the findings differ even where the arguments are equal and everything has the same span. The step
is also enough to say which parameter and which argument a mismatch is about: it always leads to
both (`Says`).
-/

namespace Conform

variable {w : Widening} {scope : Scope}

/-! ## The mismatches of a call -/

/-- A list gone through with its indices is one gone through by its indices. -/
theorem filterMap_zipIdx_eq_range {α β : Type} (f : α × Nat → Option β) (as : List α) :
    as.zipIdx.filterMap f =
      (List.range as.length).filterMap fun index => as[index]?.bind fun a => f (a, index) := by
  induction as using List.reverseRecOn with
  | nil => rfl
  | append_singleton as a ih =>
    have hbefore : ∀ index ∈ List.range as.length,
        ((as ++ [a])[index]?.bind fun b => f (b, index)) =
          as[index]?.bind fun b => f (b, index) := by
      intro index hindex
      rw [List.getElem?_append_left (List.mem_range.mp hindex)]
    have hlast : (as ++ [a])[as.length]? = some a := by simp
    rw [List.zipIdx_append, List.filterMap_append, ih, List.length_append, List.length_singleton,
      List.range_succ, List.filterMap_append, List.filterMap_congr hbefore]
    simp only [List.zipIdx_cons, List.zipIdx_nil, Nat.zero_add, List.filterMap_cons, hlast,
      Option.bind_some, List.filterMap_nil]

namespace Signature

/-- Everything that does not fit in a call, each with its place in the call. -/
def mismatches (w : Widening) (scope : Scope) (signature : Signature) (args : List Expr)
    (context? : Option Ty) : List Mismatch :=
  (signature.faults w scope args context?).map CallFault.mismatch

/-- The mismatch of the argument at an index, if it is not accepted for its parameter. -/
def argumentMismatch? (w : Widening) (scope : Scope) (signature : Signature) (args : List Expr)
    (index : Nat) : Option Mismatch := do
  let param ← signature.params[index]?
  let arg ← args[index]?
  let cause ← param.ty.valueMismatch? w scope arg
  return cause.within (.argument index)

/-- The mismatch of the result, if a type is expected of it that does not accept it. -/
def resultMismatch? (w : Widening) (signature : Signature) (context? : Option Ty) :
    Option Mismatch := do
  let context ← context?
  let cause ← context.mismatch? w signature.returns
  return cause.within .result

variable {signature : Signature} {args : List Expr} {context? : Option Ty}

theorem mismatches_of_length_ne (h : args.length ≠ signature.arity) :
    signature.mismatches w scope args context? =
      [(Reason.arity signature.arity args.length).atRoot] := by
  rw [mismatches, faults, if_neg h]
  rfl

/-- With the right number of arguments there is a mismatch for each of them that is not accepted, in
the order of the arguments, and then the one of the result. -/
theorem mismatches_of_length_eq (h : args.length = signature.arity) :
    signature.mismatches w scope args context? =
      (List.range args.length).filterMap (signature.argumentMismatch? w scope args) ++
        (signature.resultMismatch? w context?).toList := by
  have hzip : (signature.params.zip args).length = args.length := by
    rw [List.length_zip, h, arity, Nat.min_self]
  rw [mismatches, faults, if_pos h, List.map_append, List.map_filterMap, filterMap_zipIdx_eq_range,
    hzip]
  congr 1
  · refine List.filterMap_congr fun index _ => ?_
    rw [argumentMismatch?, List.zip, List.getElem?_zipWith]
    cases signature.params[index]? with
    | none => rfl
    | some param =>
      cases args[index]? with
      | none => rfl
      | some arg =>
        cases h : param.ty.valueMismatch? w scope arg <;> simp [h, CallFault.mismatch]
  · rw [resultMismatch?]
    cases context? with
    | none => rfl
    | some context =>
      cases h : context.mismatch? w signature.returns <;> simp [h, CallFault.mismatch]

/-- The path of a mismatch of an argument starts with the index of the argument. -/
theorem exists_of_argumentMismatch? {index : Nat} {found : Mismatch}
    (h : signature.argumentMismatch? w scope args index = some found) :
    found.path.head? = some (.argument index) ∧ ∃ param arg,
      signature.params[index]? = some param ∧ args[index]? = some arg := by
  obtain ⟨param, hparam, h⟩ := Option.bind_eq_some_iff.mp h
  obtain ⟨arg, harg, h⟩ := Option.bind_eq_some_iff.mp h
  obtain ⟨cause, _, h⟩ := Option.bind_eq_some_iff.mp h
  obtain rfl := Option.some.inj h
  exact ⟨rfl, param, arg, hparam, harg⟩

theorem exists_of_resultMismatch? {found : Mismatch}
    (h : signature.resultMismatch? w context? = some found) :
    found.path.head? = some .result ∧ ∃ expected, context? = some expected := by
  obtain ⟨expected, hexpected, h⟩ := Option.bind_eq_some_iff.mp h
  obtain ⟨cause, _, h⟩ := Option.bind_eq_some_iff.mp h
  obtain rfl := Option.some.inj h
  exact ⟨rfl, expected, hexpected⟩

/-- The mismatches of a call differ, by the first steps of their paths. -/
theorem nodup_mismatches : (signature.mismatches w scope args context?).Nodup := by
  by_cases hlength : args.length = signature.arity
  · rw [mismatches_of_length_eq hlength]
    refine List.Nodup.append ?_ ?_ ?_
    · refine List.Nodup.filterMap (fun index index' found h h' => ?_) List.nodup_range
      have hstep := (exists_of_argumentMismatch? h).1.symm.trans (exists_of_argumentMismatch? h').1
      exact Segment.argument.inj (Option.some.inj hstep)
    · cases signature.resultMismatch? w context? <;> simp
    · intro found hargument hresult
      obtain ⟨index, _, hindex⟩ := List.mem_filterMap.mp hargument
      have hstep := (exists_of_argumentMismatch? hindex).1.symm.trans
        (exists_of_resultMismatch? (Option.mem_toList.mp hresult)).1
      exact Segment.noConfusion (Option.some.inj hstep)
  · rw [mismatches_of_length_ne hlength]
    exact List.nodup_singleton _

end Signature

/-! ## What is said of them -/

/-- A call in the scope of its statement, in a place that expects `context?` of it. -/
structure CallSite where
  scope : Scope
  callee : Ident
  args : List Expr
  span : Span
  context? : Option Ty

/-- The mismatch that a finding is about, if it is about one. -/
def Diagnostic.cause? : Diagnostic → Option Mismatch
  | .mismatch _ _ cause _ => some cause
  | _ => none

namespace CallSite

/-- The call itself. -/
def expr (site : CallSite) : Expr :=
  .call site.callee site.args site.span

/-- What does not fit in the call if its callee has the signature. -/
def mismatches (w : Widening) (site : CallSite) (signature : Signature) : List Mismatch :=
  signature.mismatches w site.scope site.args site.context?

/-- What is found in the arguments and the result of the call. -/
def findings (w : Widening) (site : CallSite) : List Diagnostic :=
  callFindings w site.scope site.callee site.args site.span site.context?

/-- What is said of a mismatch of a call. The first step of its path leads to what it is about: the
call as a whole, an argument and its parameter, or the result. -/
inductive Says (site : CallSite) (signature : Signature) (found : Mismatch) : Diagnostic → Prop
  | call (hpath : found.path = []) :
      Says site signature found (.mismatch signature.ty
        (site.callee.name ++ "(" ++ Nat.repr site.args.length ++ " arguments)") found site.span)
  | argument {index : Nat} {param : Param Ty} {arg : Expr}
      (hpath : found.path.head? = some (.argument index))
      (hparam : signature.params[index]? = some param) (harg : site.args[index]? = some arg) :
      Says site signature found (.mismatch param.ty (arg.describe site.scope) found arg.span)
  | result {expected : Ty} (hpath : found.path.head? = some .result)
      (hcontext : site.context? = some expected) :
      Says site signature found (.mismatch expected signature.returns.render found site.span)

variable {site : CallSite} {signature : Signature}

/-- Each mismatch of a call is said, in turn. -/
theorem forall₂_says (hsignature : site.scope.callable? site.callee.name = some signature) :
    List.Forall₂ (site.Says signature) (site.mismatches w signature) (site.findings w) := by
  rw [mismatches, Signature.mismatches, findings, callFindings, hsignature]
  rw [List.forall₂_map_left_iff, List.forall₂_map_right_iff, List.forall₂_same]
  intro fault hfault
  rcases mem_faults_iff.mp hfault with ⟨_, rfl⟩ | ⟨_, h⟩
  · exact .call rfl
  · rcases h with ⟨index, param, arg, cause, hparam, harg, _, rfl⟩ |
      ⟨expected, cause, hcontext, _, rfl⟩
    · exact .argument rfl hparam harg
    · exact .result rfl hcontext

theorem Says.cause?_eq {found : Mismatch} {d : Diagnostic} (h : site.Says signature found d) :
    d.cause? = some found := by
  cases h <;> rfl

/-- The mismatch is part of what is said, so nothing is said twice. -/
theorem nodup_findings (hsignature : site.scope.callable? site.callee.name = some signature) :
    (site.findings w).Nodup := by
  have hnodup : (site.mismatches w signature).Nodup := Signature.nodup_mismatches
  have hsays := forall₂_says (w := w) hsignature
  generalize site.mismatches w signature = founds, site.findings w = ds at hnodup hsays
  have hcauses : ds.map Diagnostic.cause? = founds.map some := by
    induction hsays with
    | nil => rfl
    | cons hsays _ ih =>
      rw [List.map_cons, List.map_cons, hsays.cause?_eq, ih (List.nodup_cons.mp hnodup).2]
  refine List.Nodup.of_map Diagnostic.cause? ?_
  rw [hcauses]
  exact hnodup.map fun _ _ h => Option.some.inj h

end CallSite

/-! ## The calls of a module -/

/-- An expression stands inside another one, or is that itself. Where `expected?` is expected of the
outer one, `context?` is expected of the inner one: of a proper part no type is. -/
inductive Expr.Holds : Option Ty → Expr → Option Ty → Expr → Prop
  | refl (expected? : Option Ty) (e : Expr) : Holds expected? e expected? e
  | value {expected? context? : Option Ty} {entries : List (Entry Expr)} {span : Span}
      {entry : Entry Expr} {e : Expr} (hmem : entry ∈ entries)
      (h : Holds none entry.value context? e) : Holds expected? (.dict entries span) context? e
  | arg {expected? context? : Option Ty} {callee : Ident} {args : List Expr} {span : Span}
      {arg e : Expr} (hmem : arg ∈ args) (h : Holds none arg context? e) :
      Holds expected? (.call callee args span) context? e

/-- A call is gone through in the same way wherever it stands; what is expected of it is a matter of
its result. -/
theorem Expr.findingsIn_call (w : Widening) (scope : Scope) (expected? : Option Ty) (callee : Ident)
    (args : List Expr) (span : Span) :
    (call callee args span).findingsIn w scope expected? =
      calleeFindings scope callee ++ args.flatMap (·.findings w scope) ++
        callFindings w scope callee args span expected? := by
  cases expected? with
  | none => rw [findingsIn, findings, findingsAll_eq_flatMap]
  | some expected => rw [findingsIn, findingsAt, findingsAll_eq_flatMap]

theorem Expr.findings_subset_dict {expected? : Option Ty} {entries : List (Entry Expr)}
    {entry : Entry Expr} (hmem : entry ∈ entries) (span : Span) :
    entry.value.findings w scope ⊆ (dict entries span).findingsIn w scope expected? := by
  have hdict : entry.value.findings w scope ⊆ (dict entries span).findings w scope := by
    rw [findings, findingsEntries_eq_flatMap]
    exact fun d hd => List.mem_flatMap.mpr ⟨entry, hmem, hd⟩
  cases expected? with
  | none => exact hdict
  | some expected =>
    rcases findingsAt_eq w scope expected (dict entries span) with ⟨_, _, _, heq, _⟩ | ⟨_, heq⟩
    · exact Expr.noConfusion heq
    · rw [findingsIn, heq]
      exact List.subset_append_of_subset_left _ hdict

/-- What is found in a part of an expression is found in the expression. -/
theorem Expr.Holds.findings_subset {expected? context? : Option Ty} {e part : Expr}
    (h : e.Holds expected? context? part) :
    part.findingsIn w scope context? ⊆ e.findingsIn w scope expected? := by
  induction h with
  | refl expected? e => exact List.Subset.refl _
  | value hmem _ ih => exact List.Subset.trans ih (findings_subset_dict hmem _)
  | arg hmem _ ih =>
    rw [findingsIn_call]
    refine List.Subset.trans ih (List.subset_append_of_subset_left _ ?_)
    exact List.subset_append_of_subset_right _ fun d hd => List.mem_flatMap.mpr ⟨_, hmem, hd⟩

/-- What is expected of the expression that a statement evaluates. -/
def Stmt.expected? (g : Globals) (place : Place) (scope : Scope) : Stmt → Option Ty
  | .expr _ => none
  | .ret _ _ =>
    match place with
    | .topLevel => none
    | .body returns? => returns?
  | .assign a => if a.isRedefinition g place then none else (a.bindingIn g scope).ty?

theorem Stmt.findings_subset_of_evaluates {g : Globals} {place : Place} {stmt : Stmt} {e : Expr}
    (h : stmt.Evaluates e) :
    e.findingsIn w scope (stmt.expected? g place scope) ⊆ stmt.findings w g place scope := by
  cases h with
  | expr value => exact List.Subset.refl _
  | ret value span =>
    cases place with
    | topLevel => exact List.subset_cons_self _ _
    | body returns? => exact List.Subset.refl _
  | assign a =>
    rw [expected?, findings]
    split
    · exact List.Subset.refl _
    · exact List.subset_append_right _ _

namespace Module

/-- A module makes a call, at any depth of an expression that it evaluates. -/
def Calls (m : Module) (site : CallSite) : Prop :=
  ∃ place stmt e, m.Reaches place site.scope stmt ∧ stmt.Evaluates e ∧
    e.Holds (stmt.expected? m.globals place site.scope) site.context? site.expr

theorem findings_subset_of_calls {m : Module} {site : CallSite} (h : m.Calls site) :
    site.findings w ⊆ (check w m).diagnostics := by
  obtain ⟨place, stmt, e, hreaches, hevaluates, hholds⟩ := h
  intro d hd
  refine mem_diagnostics_iff_reaches.mpr (Or.inr ⟨place, _, stmt, hreaches, ?_⟩)
  refine Stmt.findings_subset_of_evaluates hevaluates (hholds.findings_subset ?_)
  rw [CallSite.expr, Expr.findingsIn_call]
  exact List.mem_append_right _ hd

/-- A call is checked in full, and of a call that a module makes each mismatch is said: once, of the
argument or the result that its path leads to, and by a finding of its own. -/
theorem check_says_each_mismatch (w : Widening) :
    (∀ (scope : Scope) (signature : Signature) (args : List Expr) (context? : Option Ty),
      signature.mismatches w scope args context? =
        if args.length = signature.arity then
          (List.range args.length).filterMap (signature.argumentMismatch? w scope args) ++
            (signature.resultMismatch? w context?).toList
        else [(Reason.arity signature.arity args.length).atRoot]) ∧
    ∀ (m : Module) (site : CallSite) (signature : Signature), m.Calls site →
      site.scope.callable? site.callee.name = some signature →
      ∃ ds, List.Forall₂ (site.Says signature) (site.mismatches w signature) ds ∧ ds.Nodup ∧
        ∀ d ∈ ds, (check w m).diagnostics.count d = 1 := by
  refine ⟨fun scope signature args context? => ?_, fun m site signature hcalls hsignature => ?_⟩
  · split
    · next h => exact Signature.mismatches_of_length_eq h
    · next h => exact Signature.mismatches_of_length_ne h
  · refine ⟨site.findings w, site.forall₂_says hsignature, site.nodup_findings hsignature, ?_⟩
    intro d hd
    exact List.count_eq_one_of_mem (nodup_diagnostics w m) (findings_subset_of_calls hcalls hd)

/-- A module all of whose spans are equal: a function of two `int`s that returns a `str`, and a call
of it that is wrong in every respect. -/
def misuse : Module :=
  ⟨[.function ⟨⟨"f", ⟨0, 0⟩⟩, [⟨⟨"a", ⟨0, 0⟩⟩, .named ⟨"int", ⟨0, 0⟩⟩, ⟨0, 0⟩⟩,
      ⟨⟨"b", ⟨0, 0⟩⟩, .named ⟨"int", ⟨0, 0⟩⟩, ⟨0, 0⟩⟩], .named ⟨"str", ⟨0, 0⟩⟩, [], ⟨0, 0⟩⟩,
    .stmt (.assign ⟨⟨"x", ⟨0, 0⟩⟩, some (.named ⟨"int", ⟨0, 0⟩⟩),
      .call ⟨"f", ⟨0, 0⟩⟩ [.scalar .str ⟨0, 0⟩, .scalar .str ⟨0, 0⟩] ⟨0, 0⟩, ⟨0, 0⟩⟩)]⟩

/-- The call in it. -/
def misuseSite : CallSite :=
  ⟨misuse.globals.scope.push, ⟨"f", ⟨0, 0⟩⟩, [.scalar .str ⟨0, 0⟩, .scalar .str ⟨0, 0⟩], ⟨0, 0⟩,
    some (.scalar .int)⟩

def misusedSignature : Signature :=
  ⟨[⟨"a", .scalar .int⟩, ⟨"b", .scalar .int⟩], .scalar .str⟩

/-- Three things are said of the call, although all of them have the same span. -/
theorem check_says_each_mismatch_misuse :
    misuse.Calls misuseSite ∧
      misuseSite.scope.callable? misuseSite.callee.name = some misusedSignature ∧
      ∃ ds : List Diagnostic, ds.length = 3 ∧ ds.Nodup ∧ (∀ d ∈ ds, d.span = ⟨0, 0⟩) ∧
        ∀ d ∈ ds, (check .empty misuse).diagnostics.count d = 1 := by
  have hcalls : misuse.Calls misuseSite := by
    refine ⟨.topLevel, _, _, @Reaches.topLevel misuse [] [] _ rfl, .assign _, ?_⟩
    exact .refl _ _
  have hsignature : misuseSite.scope.callable? misuseSite.callee.name = some misusedSignature := by
    rfl
  obtain ⟨ds, hsays, hnodup, honce⟩ :=
    (check_says_each_mismatch .empty).2 misuse misuseSite misusedSignature hcalls hsignature
  refine ⟨hcalls, hsignature, ds, ?_, hnodup, ?_, honce⟩
  · rw [← hsays.length_eq]
    decide +kernel
  · intro d hd
    obtain ⟨found, _, hfound⟩ := exists_of_forall₂ hsays.flip hd
    cases hfound with
    | call => rfl
    | argument _ _ harg =>
      have hspans : ∀ arg ∈ misuseSite.args, arg.span = ⟨0, 0⟩ := by decide
      exact hspans _ (List.mem_of_getElem? harg)
    | result => rfl

end Module

end Conform
