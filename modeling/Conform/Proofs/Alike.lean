import Conform.Proofs.Reports

/-!
# Scopes that answer alike

Two scopes may hold the same declarations in tables of a different order. Nothing that is found in
an expression, a statement or a body depends on that: everything is read through the lookups, so
scopes that answer every lookup alike give **the same findings in the same order**, with the same
words (`Scope.Alike.findings` and the family after it).

The lists of findings are equal here, not only equal up to order. Order enters a module only where
its items are walked, which is the subject of `Proofs/Order.lean`.
-/

namespace Conform

/-- Fields are violated alike if the values of the entries are judged alike. -/
theorem fieldsMismatch?_congr {w w' : Widening} {s s' : Scope} {entries : List (Entry Expr)}
    (ih : ∀ entry ∈ entries, ∀ expected : Ty,
      expected.valueMismatch? w s entry.value = expected.valueMismatch? w' s' entry.value)
    (fields : List (Field Ty)) :
    Ty.fieldsMismatch? w s fields entries = Ty.fieldsMismatch? w' s' fields entries := by
  induction fields with
  | nil => rw [Ty.fieldsMismatch?, Ty.fieldsMismatch?]
  | cons field rest ihFields =>
    obtain ⟨name, ty, required⟩ := field
    rw [Ty.fieldsMismatch?, Ty.fieldsMismatch?, ihFields]
    cases hentry : entryOf? entries name with
    | none => rfl
    | some entry =>
      have hmem : entry ∈ entries := List.mem_reverse.mp (List.mem_of_find?_eq_some hentry)
      simp only [ih entry hmem ty]

/-- Two scopes answer every lookup alike. -/
structure Scope.Alike (s s' : Scope) : Prop where
  record? : ∀ name, s.record? name = s'.record? name
  function? : ∀ name, s.function? name = s'.function? name
  local? : ∀ name, s.local? name = s'.local? name
  isPoisoned : ∀ name, s.isPoisoned name = s'.isPoisoned name

namespace Scope.Alike

variable {w : Widening} {s s' : Scope}

section

variable (h : s.Alike s')

include h

theorem valueType? (name : String) : s.valueType? name = s'.valueType? name := by
  unfold Scope.valueType?
  rw [h.local?, h.function?]

theorem callable? (name : String) : s.callable? name = s'.callable? name := by
  unfold Scope.callable?
  rw [h.local?, h.function?]

theorem isBound (name : String) : s.isBound name = s'.isBound name := by
  unfold Scope.isBound
  rw [h.local?, h.function?, h.record?, h.isPoisoned]

theorem push : s.push.Alike s'.push where
  record? := h.record?
  function? := h.function?
  local? := h.local?
  isPoisoned := h.isPoisoned

theorem bind (name : String) (binding : Binding) :
    (s.bind name binding).Alike (s'.bind name binding) where
  record? := h.record?
  function? := h.function?
  local? key := by rw [Scope.local?_bind, Scope.local?_bind, h.local?]
  isPoisoned := h.isPoisoned

omit h in
theorem foldl_bind {α : Type} (h : s.Alike s') (name : α → String) (binding : α → Binding)
    (items : List α) :
    (items.foldl (fun scope a => scope.bind (name a) (binding a)) s).Alike
      (items.foldl (fun scope a => scope.bind (name a) (binding a)) s') := by
  induction items generalizing s s' with
  | nil => exact h
  | cons a rest ih => exact ih (h.bind (name a) (binding a))

/-! ## Expressions -/

theorem describe (e : Expr) : e.describe s = e.describe s' := by
  induction e using Expr.induct with
  | scalar kind span => rw [Expr.describe, Expr.describe]
  | dict entries span ih =>
    rw [Expr.describe, Expr.describe, Expr.describeEntries_eq_map, Expr.describeEntries_eq_map]
    have hentries :
        (entries.map fun entry => Text.quoted entry.key ++ ": " ++ entry.value.describe s) =
        entries.map fun entry => Text.quoted entry.key ++ ": " ++ entry.value.describe s' := by
      apply List.map_congr_left
      intro entry hentry
      rw [ih entry hentry]
    rw [hentries]
  | call callee args span _ => rw [Expr.describe, Expr.describe, h.callable?]
  | name ident => rw [Expr.describe, Expr.describe, h.valueType?]

theorem valueMismatch? (expected : Ty) (e : Expr) :
    expected.valueMismatch? w s e = expected.valueMismatch? w s' e := by
  induction e using Expr.induct generalizing expected with
  | scalar kind span =>
    cases expected <;> simp only [Ty.valueMismatch?, Expr.describe]
  | dict entries span ih =>
    cases expected with
    | scalar kind => simp only [Ty.valueMismatch?, h.describe]
    | record name fields =>
      rw [Ty.valueMismatch?, Ty.valueMismatch?,
        fieldsMismatch?_congr (fun entry hentry expected => ih entry hentry expected) fields]
    | callable params returns => simp only [Ty.valueMismatch?, h.describe]
  | call callee args span _ => rw [Ty.valueMismatch?, Ty.valueMismatch?, h.callable?]
  | name ident => rw [Ty.valueMismatch?, Ty.valueMismatch?, h.valueType?]

theorem faults (signature : Signature) (args : List Expr) (context? : Option Ty) :
    signature.faults w s args context? = signature.faults w s' args context? := by
  unfold Signature.faults
  simp only [h.valueMismatch?]

theorem calleeFindings (callee : Ident) :
    Conform.calleeFindings s callee = Conform.calleeFindings s' callee := by
  unfold Conform.calleeFindings
  rw [h.callable?, h.local?, h.isBound]

theorem faultDiagnostic (callee : Ident) (signature : Signature) (span : Span) (fault : CallFault) :
    fault.diagnostic s callee signature span = fault.diagnostic s' callee signature span := by
  unfold CallFault.diagnostic
  cases fault with
  | arity _ _ => rfl
  | argument _ _ arg _ => simp only [h.describe]
  | result _ _ => rfl

theorem callFindings (callee : Ident) (args : List Expr) (span : Span) (context? : Option Ty) :
    Conform.callFindings w s callee args span context? =
      Conform.callFindings w s' callee args span context? := by
  unfold Conform.callFindings
  rw [h.callable?]
  cases s'.callable? callee.name with
  | none => rfl
  | some signature =>
    dsimp only
    rw [h.faults]
    apply List.map_congr_left
    intro fault _
    exact h.faultDiagnostic callee signature span fault

theorem findings (e : Expr) : e.findings w s = e.findings w s' := by
  induction e using Expr.induct with
  | scalar kind span => rw [Expr.findings, Expr.findings]
  | dict entries span ih =>
    rw [Expr.findings, Expr.findings, Expr.findingsEntries_eq_flatMap,
      Expr.findingsEntries_eq_flatMap]
    exact List.flatMap_congr ih
  | call callee args span ih =>
    rw [Expr.findings, Expr.findings, Expr.findingsAll_eq_flatMap, Expr.findingsAll_eq_flatMap,
      h.calleeFindings, h.callFindings, List.flatMap_congr ih]
  | name ident => rw [Expr.findings, Expr.findings, h.isBound]

theorem findingsAll (es : List Expr) : Expr.findingsAll w s es = Expr.findingsAll w s' es := by
  rw [Expr.findingsAll_eq_flatMap, Expr.findingsAll_eq_flatMap]
  exact List.flatMap_congr fun e _ => h.findings e

theorem findingsAt (expected : Ty) (e : Expr) :
    e.findingsAt w s expected = e.findingsAt w s' expected := by
  unfold Expr.findingsAt
  split
  · rw [h.calleeFindings, h.findingsAll, h.callFindings]
  · rw [h.findings, h.valueMismatch?, h.describe]

theorem findingsIn (expected? : Option Ty) (e : Expr) :
    e.findingsIn w s expected? = e.findingsIn w s' expected? := by
  cases expected? with
  | none => exact h.findings e
  | some expected => exact h.findingsAt expected e

end

end Scope.Alike

/-! ## Statements -/

/-- Two modules declare the same, in the eyes of their statements. -/
structure Globals.Alike (g g' : Globals) : Prop where
  known : g.known = g'.known
  declares : ∀ name, g.declares name = g'.declares name
  record : ∀ name, (recordNamed? g.records name).isSome = (recordNamed? g'.records name).isSome
  scope : g.scope.Alike g'.scope

namespace Globals.Alike

variable {w : Widening} {g g' : Globals} {s s' : Scope} {place : Place} (hg : g.Alike g')

include hg

theorem unknown (a : Assignment) : a.unknown g.records = a.unknown g'.records := by
  unfold Assignment.unknown TyForm.unknown
  cases a.form with
  | none => rfl
  | some form => simp only [hg.record]

theorem isRedefinition (a : Assignment) :
    a.isRedefinition g place = a.isRedefinition g' place := by
  cases place with
  | topLevel => exact hg.declares _
  | body _ => rfl

theorem bindingIn (hs : s.Alike s') (a : Assignment) : a.bindingIn g s = a.bindingIn g' s' := by
  unfold Assignment.bindingIn
  rw [hg.known, hs.local?]

theorem findings (hs : s.Alike s') (stmt : Stmt) :
    stmt.findings w g place s = stmt.findings w g' place s' := by
  cases stmt with
  | expr value => exact hs.findings value
  | ret value? span =>
    cases place with
    | topLevel =>
      cases value? with
      | none => rfl
      | some value => exact congrArg _ (hs.findings value)
    | body returns? => exact hs.findingsIn returns? _
  | assign a =>
    rw [Stmt.findings, Stmt.findings, hg.isRedefinition, hs.findings, hg.unknown,
      hg.bindingIn hs, hs.findingsIn]

theorem leaves (hs : s.Alike s') (stmt : Stmt) :
    (stmt.leaves g place s).Alike (stmt.leaves g' place s') := by
  cases stmt with
  | expr value => exact hs
  | ret value? span => exact hs
  | assign a =>
    rw [Stmt.leaves, Stmt.leaves, hg.isRedefinition, hg.bindingIn hs]
    split
    · exact hs
    · exact hs.bind _ _

theorem findingsOfBody (hs : s.Alike s') (stmts : List Stmt) :
    Conform.findingsOfBody w g place s stmts = Conform.findingsOfBody w g' place s' stmts := by
  induction stmts generalizing s s' with
  | nil => rfl
  | cons stmt rest ih =>
    rw [Conform.findingsOfBody, Conform.findingsOfBody, hg.findings hs, ih (hg.leaves hs stmt)]

theorem bodyScope (decl : FunctionDecl) : (decl.bodyScope g).Alike (decl.bodyScope g') := by
  unfold FunctionDecl.bodyScope
  rw [hg.known]
  exact hg.scope.push.foldl_bind (fun param : ParamDecl => param.name.name)
    (fun param => .ofOption (param.form.denote? g'.known)) decl.params

theorem functionFindings (decl : FunctionDecl) : decl.findings w g = decl.findings w g' := by
  unfold FunctionDecl.findings
  rw [hg.known, hg.findingsOfBody (hg.bodyScope decl)]

end Globals.Alike

end Conform
