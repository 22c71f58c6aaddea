import Conform.Proofs.Calls
import Conform.Proofs.Declarations
import Conform.Proofs.Subsumption
import Conform.Proofs.Verdicts

/-!
# Calls of what has failed

A function whose declaration failed has a name and nothing else. A call of it is accepted wherever a
type is expected, and nothing is said of the call beyond what is wrong inside its arguments
(`Scope.Poisons.valueMismatch?_call`, `Scope.Poisons.findingsIn_call`). So a failure is reported at
the declaration and does not spread to the places that use the function.

**No check can tell what literals such a function is called with**
(`Module.check_ignores_poisoned_calls`): if its calls are made anew with other literals, and with
any number of them, the outcome is the same in every word. The rest of an expression sees a call by
its callee alone, and what a module declares does not depend on values at all
(`Module.globals_bare`). The name has to mean the failed declaration where the call stands, so a
body that takes a parameter of that name, or assigns to it, is left as it is.
-/

namespace Conform

variable {w : Widening} {scope : Scope} {f : String}

/-! ## What a failed declaration is to its callers -/

/-- A name means a declaration that failed: no variable and no function hides it. -/
structure Scope.Poisons (scope : Scope) (f : String) : Prop where
  local? : scope.local? f = none
  function? : scope.function? f = none
  isPoisoned : scope.isPoisoned f = true

namespace Scope.Poisons

theorem callable? (h : scope.Poisons f) : scope.callable? f = none := by
  rw [Scope.callable?, h.local?, h.function?]
  rfl

theorem isBound (h : scope.Poisons f) : scope.isBound f = true := by
  simp [Scope.isBound, h.isPoisoned]

theorem push (h : scope.Poisons f) : scope.push.Poisons f :=
  ⟨h.local?, h.function?, h.isPoisoned⟩

theorem bind (h : scope.Poisons f) {name : String} (hname : name ≠ f) (binding : Binding) :
    (scope.bind name binding).Poisons f where
  local? := by rw [Scope.local?_bind, if_neg hname, h.local?]
  function? := h.function?
  isPoisoned := h.isPoisoned

variable {callee : Ident} (hcallee : callee.name = f) (args : List Expr) (span : Span)

include hcallee

/-- A call of a name that failed is accepted at every type. -/
theorem valueMismatch?_call (h : scope.Poisons f) (expected : Ty) :
    expected.valueMismatch? w scope (.call callee args span) = none := by
  rw [Ty.valueMismatch?, hcallee, h.callable?]
  rfl

/-- Of a call of a name that failed nothing is found but what is wrong inside the arguments. -/
theorem findingsIn_call (h : scope.Poisons f) (expected? : Option Ty) :
    (Expr.call callee args span).findingsIn w scope expected? =
      args.flatMap (·.findings w scope) := by
  have hname : calleeFindings scope callee = [] := by
    rw [calleeFindings, hcallee, h.callable?, h.local?]
    exact if_pos h.isBound
  have hfaults : callFindings w scope callee args span expected? = [] := by
    rw [callFindings, hcallee, h.callable?]
  rw [Expr.findingsIn_call, hname, hfaults, List.nil_append, List.append_nil]

end Scope.Poisons

theorem Expr.IsLiteral.findings_eq_nil {e : Expr} (h : e.IsLiteral) : e.findings w scope = [] := by
  induction h with
  | scalar kind span => rfl
  | dict _ ih =>
    rw [findings, findingsEntries_eq_flatMap, List.flatMap_eq_nil_iff]
    exact ih

/-! ## Expressions that are checked alike -/

/-- Nothing that is asked of an expression in a scope tells it from another one. -/
structure Expr.Indistinct (w : Widening) (scope : Scope) (e e' : Expr) : Prop where
  span : e.span = e'.span
  describe : e.describe scope = e'.describe scope
  valueMismatch? : ∀ expected : Ty, expected.valueMismatch? w scope e =
    expected.valueMismatch? w scope e'
  findingsIn : ∀ expected? : Option Ty, e.findingsIn w scope expected? =
    e'.findingsIn w scope expected?

namespace Expr.Indistinct

theorem refl (e : Expr) : e.Indistinct w scope e :=
  ⟨rfl, rfl, fun _ => rfl, fun _ => rfl⟩

theorem flatMap_findings {α : Type} {value : α → Expr} {as as' : List α}
    (h : List.Forall₂ (fun a a' => (value a).Indistinct w scope (value a')) as as') :
    (as.flatMap fun a => (value a).findings w scope) =
      as'.flatMap fun a => (value a).findings w scope := by
  induction h with
  | nil => rfl
  | cons hfirst _ ih =>
    rw [List.flatMap_cons, List.flatMap_cons, ih]
    exact congrArg (· ++ _) (hfirst.findingsIn none)

/-- An entry with the same key and a value that nothing tells apart. -/
def OfEntry (w : Widening) (scope : Scope) (entry entry' : Entry Expr) : Prop :=
  entry.key = entry'.key ∧ entry.value.Indistinct w scope entry'.value

theorem describeEntries {entries entries' : List (Entry Expr)}
    (h : List.Forall₂ (OfEntry w scope) entries entries') :
    Expr.describeEntries scope entries = Expr.describeEntries scope entries' := by
  rw [describeEntries_eq_map, describeEntries_eq_map]
  induction h with
  | nil => rfl
  | cons hfirst _ ih => rw [List.map_cons, List.map_cons, ih, hfirst.1, hfirst.2.describe]

theorem fieldsMismatch? {entries entries' : List (Entry Expr)}
    (h : List.Forall₂ (OfEntry w scope) entries entries') (fields : List (Field Ty)) :
    Ty.fieldsMismatch? w scope fields entries = Ty.fieldsMismatch? w scope fields entries' := by
  have hfield : ∀ field : Field Ty,
      field.entryMismatch? w scope entries = field.entryMismatch? w scope entries' := by
    intro field
    have hrel := entryOf?_rel h field.name
    rw [Field.entryMismatch?, Field.entryMismatch?]
    generalize entryOf? entries field.name = entry?, entryOf? entries' field.name = entry'? at hrel
    cases hrel with
    | none => rfl
    | some hvalue => exact congrArg _ (hvalue.valueMismatch? field.ty)
  rw [fieldsMismatch?_eq_findSome?, fieldsMismatch?_eq_findSome?, funext hfield]

theorem firstExtra? {entries entries' : List (Entry Expr)}
    (h : List.Forall₂ (OfEntry w scope) entries entries') (fields : List (Field Ty)) :
    (Conform.firstExtra? fields entries).map Entry.key =
      (Conform.firstExtra? fields entries').map Entry.key := by
  induction h with
  | nil => rfl
  | cons hfirst _ ih =>
    rw [Conform.firstExtra?, Conform.firstExtra?, List.find?_cons, List.find?_cons, hfirst.1]
    split
    · exact congrArg some hfirst.1
    · exact ih

/-- Dict literals whose entries are checked alike are. -/
theorem dict {entries entries' : List (Entry Expr)}
    (h : List.Forall₂ (OfEntry w scope) entries entries') (span : Span) :
    (Expr.dict entries span).Indistinct w scope (.dict entries' span) := by
  have hdescribe : (Expr.dict entries span).describe scope =
      (Expr.dict entries' span).describe scope := by
    rw [Expr.describe, Expr.describe, describeEntries h]
  have hmismatch : ∀ expected : Ty, expected.valueMismatch? w scope (.dict entries span) =
      expected.valueMismatch? w scope (.dict entries' span) := by
    intro expected
    cases expected with
    | scalar _ => simp [Ty.valueMismatch?, hdescribe]
    | callable _ _ => simp [Ty.valueMismatch?, hdescribe]
    | record _ fields =>
      have hextra := congrArg (Option.map fun key =>
        (Reason.extraKey key).atRoot.within (.field key)) (firstExtra? h fields)
      rw [Option.map_map, Option.map_map] at hextra
      rw [Ty.valueMismatch?, Ty.valueMismatch?, fieldsMismatch? h]
      exact congrArg _ hextra
  have hfindings : (Expr.dict entries span).findings w scope =
      (Expr.dict entries' span).findings w scope := by
    rw [findings, findings, findingsEntries_eq_flatMap, findingsEntries_eq_flatMap]
    exact flatMap_findings (h.imp fun _ _ hentry => hentry.2)
  refine ⟨rfl, hdescribe, hmismatch, fun expected? => ?_⟩
  cases expected? with
  | none => exact hfindings
  | some expected =>
    show (Expr.dict entries span).findings w scope ++ _ =
      (Expr.dict entries' span).findings w scope ++ _
    rw [hfindings, hmismatch, hdescribe]
    rfl

theorem callFindings {args args' : List Expr}
    (h : List.Forall₂ (Expr.Indistinct w scope) args args') (callee : Ident) (span : Span)
    (context? : Option Ty) :
    Conform.callFindings w scope callee args span context? =
      Conform.callFindings w scope callee args' span context? := by
  rw [Conform.callFindings, Conform.callFindings]
  cases scope.callable? callee.name with
  | none => rfl
  | some signature =>
    have hslots : List.Forall₂ (fun slot slot' : Param Ty × Expr =>
        slot.1 = slot'.1 ∧ slot.2.Indistinct w scope slot'.2)
        (signature.params.zip args) (signature.params.zip args') := by
      generalize signature.params = params
      induction h generalizing params with
      | nil => simp
      | cons hfirst _ ih =>
        cases params with
        | nil => exact .nil
        | cons param rest => exact .cons ⟨rfl, hfirst⟩ (ih rest)
    dsimp only
    rw [Signature.faults, Signature.faults, h.length_eq]
    split
    · rw [List.map_append, List.map_append, List.map_filterMap, List.map_filterMap]
      congr 1
      refine filterMap_zipIdx_congr hslots (fun slot slot' index hslot => ?_) 0
      obtain ⟨param, arg⟩ := slot
      obtain ⟨param', arg'⟩ := slot'
      obtain ⟨rfl, harg⟩ := hslot
      dsimp only at harg ⊢
      rw [harg.valueMismatch?, Option.map_map, Option.map_map]
      cases param.ty.valueMismatch? w scope arg' with
      | none => rfl
      | some cause =>
        simp only [Option.map_some, Function.comp_apply, CallFault.diagnostic, CallFault.mismatch,
          harg.describe, harg.span]
    · rfl

/-- Calls of one callee whose arguments are checked alike are. -/
theorem call {args args' : List Expr} (h : List.Forall₂ (Expr.Indistinct w scope) args args')
    (callee : Ident) (span : Span) :
    (Expr.call callee args span).Indistinct w scope (.call callee args' span) where
  span := rfl
  describe := rfl
  valueMismatch? expected := by rw [Ty.valueMismatch?, Ty.valueMismatch?]
  findingsIn expected? := by
    rw [findingsIn_call, findingsIn_call, callFindings h]
    exact congrArg (_ ++ · ++ _) (flatMap_findings h)

end Expr.Indistinct

/-! ## Calls made anew -/

/-- The second expression is the first one with other literals in calls of `f`, in any number of
them and any number in each. Only calls whose arguments are literals are made anew. -/
inductive Expr.Recalled (f : String) : Expr → Expr → Prop
  | anew {callee : Ident} {args args' : List Expr} {span : Span} (hcallee : callee.name = f)
      (hargs : ∀ arg ∈ args, arg.IsLiteral) (hargs' : ∀ arg ∈ args', arg.IsLiteral) :
      Recalled f (.call callee args span) (.call callee args' span)
  | scalar (kind : Scalar) (span : Span) : Recalled f (.scalar kind span) (.scalar kind span)
  | dict {entries entries' : List (Entry Expr)} {span : Span}
      (hlength : entries.length = entries'.length)
      (hkeys : ∀ i (h : i < entries.length) (h' : i < entries'.length),
        entries[i].key = entries'[i].key ∧ entries[i].span = entries'[i].span)
      (hvalues : ∀ i (h : i < entries.length) (h' : i < entries'.length),
        Recalled f entries[i].value entries'[i].value) :
      Recalled f (.dict entries span) (.dict entries' span)
  | call {callee : Ident} {args args' : List Expr} {span : Span}
      (hlength : args.length = args'.length)
      (hargs : ∀ i (h : i < args.length) (h' : i < args'.length), Recalled f args[i] args'[i]) :
      Recalled f (.call callee args span) (.call callee args' span)
  | name (ident : Ident) : Recalled f (.name ident) (.name ident)

@[inherit_doc Expr.Recalled]
inductive Stmt.Recalled (f : String) : Stmt → Stmt → Prop
  | expr {value value' : Expr} (h : value.Recalled f value') :
      Recalled f (.expr value) (.expr value')
  | ret {value? value'? : Option Expr} (h : Option.Rel (Expr.Recalled f) value? value'?)
      (span : Span) : Recalled f (.ret value? span) (.ret value'? span)
  | assign {target : Ident} {form : Option TyForm} {value value' : Expr} {span : Span}
      (h : value.Recalled f value') :
      Recalled f (.assign ⟨target, form, value, span⟩) (.assign ⟨target, form, value', span⟩)

/-- A function gives a name to a parameter or to a variable of its own. -/
def FunctionDecl.Rebinds (decl : FunctionDecl) (f : String) : Prop :=
  (∃ param ∈ decl.params, param.name.name = f) ∨ ∃ a, .assign a ∈ decl.body ∧ a.target.name = f

/-- In a function that rebinds the name nothing is made anew. -/
inductive Item.Recalled (f : String) : Item → Item → Prop
  | record (decl : RecordDecl) : Recalled f (.record decl) (.record decl)
  | rebinding {decl : FunctionDecl} (h : decl.Rebinds f) :
      Recalled f (.function decl) (.function decl)
  | function {decl : FunctionDecl} {body : List Stmt} (h : ¬ decl.Rebinds f)
      (hbody : List.Forall₂ (Stmt.Recalled f) decl.body body) :
      Recalled f (.function decl) (.function { decl with body := body })
  | stmt {s s' : Stmt} (h : s.Recalled f s') : Recalled f (.stmt s) (.stmt s')

/-- The second module is the first one with other literals in calls of `f`. -/
def Module.Recalled (f : String) (m m' : Module) : Prop :=
  List.Forall₂ (Item.Recalled f) m.items m'.items

/-- Calls of a name that failed may be made anew and nothing tells. -/
theorem Expr.Recalled.indistinct (hf : scope.Poisons f) {e e' : Expr} (h : e.Recalled f e') :
    e.Indistinct w scope e' := by
  induction h with
  | @anew callee args args' span hcallee hargs hargs' =>
    have hnil : ∀ es : List Expr, (∀ e ∈ es, e.IsLiteral) → es.flatMap (·.findings w scope) = [] :=
      fun es hes => List.flatMap_eq_nil_iff.mpr fun e he => (hes e he).findings_eq_nil
    refine ⟨rfl, rfl, fun expected => ?_, fun expected? => ?_⟩
    · rw [hf.valueMismatch?_call hcallee, hf.valueMismatch?_call hcallee]
    · rw [hf.findingsIn_call hcallee, hf.findingsIn_call hcallee, hnil args hargs,
        hnil args' hargs']
  | scalar kind span => exact .refl _
  | dict hlength hkeys _ ih =>
    refine .dict (List.forall₂_iff_get.mpr ⟨hlength, fun i hi hi' => ?_⟩) _
    exact ⟨(hkeys i hi hi').1, ih i hi hi'⟩
  | call hlength _ ih => exact .call (List.forall₂_iff_get.mpr ⟨hlength, ih⟩) _ _
  | name ident => exact .refl _

theorem Expr.Recalled.span_eq {e e' : Expr} (h : e.Recalled f e') : e.span = e'.span := by
  cases h <;> rfl

/-! ## Statements -/

namespace Stmt.Recalled

variable {g : Globals} {place : Place} {s s' : Stmt}

theorem findings_eq (hf : scope.Poisons f) (h : s.Recalled f s') :
    s.findings w g place scope = s'.findings w g place scope := by
  cases h with
  | expr h => exact (h.indistinct hf).findingsIn none
  | @ret value? value'? h span =>
    have hindistinct : (value?.getD (.scalar .none span)).Indistinct w scope
        (value'?.getD (.scalar .none span)) := by
      cases h with
      | none => exact .refl _
      | some h => exact h.indistinct hf
    cases place with
    | topLevel =>
      cases h with
      | none => rfl
      | some h => exact congrArg (_ :: ·) ((h.indistinct hf).findingsIn none)
    | body returns? => exact hindistinct.findingsIn returns?
  | @assign target form value value' span h =>
    have hindistinct := h.indistinct (w := w) hf
    have hbinding : Assignment.bindingIn g scope ⟨target, form, value', span⟩ =
        Assignment.bindingIn g scope ⟨target, form, value, span⟩ := by
      cases form <;> rfl
    have hplace : Assignment.isRedefinition g place ⟨target, form, value', span⟩ =
        Assignment.isRedefinition g place ⟨target, form, value, span⟩ := by
      cases place <;> rfl
    rw [Stmt.findings, Stmt.findings, hplace, hbinding]
    split
    · exact hindistinct.findingsIn none
    · exact congrArg (_ ++ ·) (hindistinct.findingsIn _)

theorem leaves_eq (h : s.Recalled f s') : s.leaves g place scope = s'.leaves g place scope := by
  cases h with
  | expr _ => rfl
  | ret _ _ => rfl
  | assign _ => rfl

theorem bare_eq (h : s.Recalled f s') : s.bare = s'.bare := by
  cases h with
  | expr h => rw [bare, bare, h.span_eq]
  | ret _ _ => rfl
  | assign _ => rfl

end Stmt.Recalled

/-- An assignment to another name hides nothing, nor does one that only tries to redefine. -/
theorem Scope.Poisons.leaves {g : Globals} {place : Place} {s : Stmt} (h : scope.Poisons f)
    (hfree : ∀ a, s = .assign a → a.target.name = f → a.isRedefinition g place = true) :
    (s.leaves g place scope).Poisons f := by
  cases s with
  | expr _ => exact h
  | ret _ _ => exact h
  | assign a =>
    rw [Stmt.leaves]
    split
    · exact h
    · next hplace => exact h.bind (fun hname => hplace (hfree a rfl hname)) _

theorem findingsOfBody_eq_of_recalled {g : Globals} {place : Place} {stmts stmts' : List Stmt}
    (hf : scope.Poisons f)
    (hfree : ∀ a, .assign a ∈ stmts → a.target.name = f → a.isRedefinition g place = true)
    (h : List.Forall₂ (Stmt.Recalled f) stmts stmts') :
    findingsOfBody w g place scope stmts = findingsOfBody w g place scope stmts' := by
  induction h generalizing scope with
  | nil => rfl
  | cons hfirst _ ih =>
    rw [findingsOfBody, findingsOfBody, hfirst.findings_eq hf, ← hfirst.leaves_eq]
    refine congrArg _ (ih (hf.leaves fun a ha => hfree a ?_) fun a hmem =>
      hfree a (List.mem_cons_of_mem _ hmem))
    rw [ha]
    exact List.mem_cons_self

/-! ## Functions and modules -/

theorem Scope.Poisons.bodyScope {g : Globals} (h : g.scope.Poisons f) {decl : FunctionDecl}
    (hparams : ∀ param ∈ decl.params, param.name.name ≠ f) : (decl.bodyScope g).Poisons f := by
  unfold FunctionDecl.bodyScope
  have hpush := h.push
  generalize g.scope.push = scope at hpush ⊢
  generalize decl.params = params at hparams ⊢
  induction params generalizing scope with
  | nil => exact hpush
  | cons param rest ih =>
    rw [List.forall_mem_cons] at hparams
    exact ih _ (hpush.bind hparams.1 _) hparams.2

theorem findingsOfItems_eq_of_recalled {g : Globals} {items items' : List Item}
    (hf : scope.Poisons f) (hglobal : g.scope.Poisons f) (hdeclares : g.declares f = true)
    (h : List.Forall₂ (Item.Recalled f) items items') :
    findingsOfItems w g scope items = findingsOfItems w g scope items' := by
  induction h generalizing scope with
  | nil => rfl
  | cons hfirst _ ih =>
    cases hfirst with
    | record decl => exact ih hf
    | rebinding _ => exact congrArg (_ ++ ·) (ih hf)
    | @function decl body hrebinds hbody =>
      have hfunction : decl.findings w g =
          FunctionDecl.findings w g { decl with body := body } := by
        refine findingsOfBody_eq_of_recalled (hglobal.bodyScope fun param hmem hname => ?_)
          (fun a hmem hname => ?_) hbody
        · exact absurd (Or.inl ⟨param, hmem, hname⟩) hrebinds
        · exact absurd (Or.inr ⟨a, hmem, hname⟩) hrebinds
      rw [findingsOfItems, findingsOfItems, hfunction, ih hf]
    | @stmt s _ hstmt =>
      have hleaves : (s.leaves g .topLevel scope).Poisons f := by
        -- An assignment to the name itself is a redefinition, since a declaration has the name.
        refine hf.leaves fun a _ hname => ?_
        rw [Assignment.isRedefinition, hname]
        exact hdeclares
      rw [findingsOfItems, findingsOfItems, hstmt.findings_eq hf, ← hstmt.leaves_eq, ih hleaves]

namespace Module

namespace Recalled

variable {m m' : Module}

theorem bare_eq (h : m.Recalled f m') : m.bare = m'.bare := by
  refine congrArg Module.mk ?_
  unfold Recalled at h
  generalize m.items = items, m'.items = items' at h
  induction h with
  | nil => rfl
  | cons hfirst _ ih =>
    rw [List.map_cons, List.map_cons, ih]
    refine congrArg (· :: _) ?_
    cases hfirst with
    | record decl => rfl
    | rebinding _ => rfl
    | function _ _ => rfl
    | stmt h => exact congrArg Item.stmt h.bare_eq

theorem globals_eq (h : m.Recalled f m') : m.globals = m'.globals := by
  rw [← m.globals_bare, h.bare_eq, globals_bare]

theorem globals_findings_eq (h : m.Recalled f m') (g : Globals) : g.findings m = g.findings m' := by
  rw [← m.globals_findings_bare, h.bare_eq, globals_findings_bare]

end Recalled

/-- The name of a declaration that failed means nothing else at the top level. -/
theorem poisons_of_isPoisoned {m : Module} (h : m.globals.scope.isPoisoned f = true) :
    m.globals.declares f = true ∧ m.globals.scope.Poisons f := by
  have hcause := isPoisoned_globals_iff.mp h
  have hdeclares : m.globals.declares f = true := by
    have hdeclared : ∃ ident ∈ m.declared, ident.name = f := by
      rw [exists_declared_iff]
      exact hcause.imp (fun ⟨decl, hmem, hname, _⟩ => ⟨decl, hmem, hname⟩)
        fun ⟨decl, hmem, hname, _⟩ => ⟨decl, hmem, hname⟩
    obtain ⟨ident, hmem, hname⟩ := hdeclared
    show (identNamed? m.declared f).isSome = true
    rw [Option.isSome_iff_ne_none, Ne, identNamed?_eq_none_iff]
    exact fun hnone => hnone ident hmem hname
  refine ⟨hdeclares, ?_, ?_, h⟩
  · rw [local?_globals]
    exact if_pos hdeclares
  · rw [Option.eq_none_iff_forall_ne_some]
    intro entry hentry
    obtain ⟨decl, hmem, hname, hsignature, _⟩ := function?_globals_iff.mp hentry
    rcases hcause with ⟨other, hother, hname', _⟩ | ⟨other, hother, hname', hfailed⟩
    · exact (mem_recordsInForce_iff.mp hother).name_ne (mem_functionsInForce_iff.mp hmem)
        (hname'.trans hname.symm)
    · obtain rfl := List.inj_on_of_nodup_map m.nodup_functionsInForce hmem hother
        (hname.trans hname'.symm)
      exact hfailed _ hsignature

/-- What a failed function is called with changes nothing: neither where the calls of a module are
made anew, nor at any call where the name means the failed declaration. That is so wherever no
variable hides it. -/
theorem check_ignores_poisoned_calls (w : Widening) {m : Module} {f : String}
    (hf : (check w m).scope.isPoisoned f = true) :
    (∀ m', m.Recalled f m' → check w m' = check w m) ∧
    (∀ place scope stmt, m.Reaches place scope stmt → scope.local? f = none → scope.Poisons f) ∧
    ∀ (scope : Scope) (callee : Ident) (args : List Expr) (span : Span), scope.Poisons f →
      callee.name = f →
      (∀ expected : Ty, expected.valueMismatch? w scope (.call callee args span) = none) ∧
      ∀ expected? : Option Ty, (Expr.call callee args span).findingsIn w scope expected? =
        args.flatMap (·.findings w scope) := by
  obtain ⟨hdeclares, hglobal⟩ := poisons_of_isPoisoned hf
  refine ⟨fun m' hrecalled => ?_, fun place scope stmt hreaches hlocal => ⟨hlocal, ?_, ?_⟩, ?_⟩
  · have hitems := findingsOfItems_eq_of_recalled (w := w) hglobal.push hglobal hdeclares hrecalled
    rw [check, check, findings, findings, ← hrecalled.globals_eq, ← hrecalled.globals_findings_eq,
      hitems]
  · exact (hreaches.read_eq (fun scope => scope.function? f) fun _ _ _ => rfl).trans
      hglobal.function?
  · exact (hreaches.read_eq (fun scope => scope.isPoisoned f) fun _ _ _ => rfl).trans
      hglobal.isPoisoned
  · intro scope callee args span hpoisons hcallee
    exact ⟨hpoisons.valueMismatch?_call hcallee args span,
      hpoisons.findingsIn_call hcallee args span⟩

/-- A module with a function whose parameter has an unknown type, and a call of it inside a dict
literal that is the argument of another call. -/
def failing (args : List Expr) : Module :=
  ⟨[.function ⟨⟨"f", ⟨0, 1⟩⟩, [⟨⟨"x", ⟨2, 3⟩⟩, .named ⟨"Missing", ⟨4, 5⟩⟩, ⟨2, 5⟩⟩],
      .named ⟨"int", ⟨6, 7⟩⟩, [], ⟨0, 7⟩⟩,
    .stmt (.expr (.call ⟨"f", ⟨8, 9⟩⟩
      [.dict [⟨"k", .call ⟨"f", ⟨10, 11⟩⟩ args ⟨10, 12⟩, ⟨10, 12⟩⟩] ⟨10, 12⟩] ⟨8, 13⟩))]⟩

/-- The call may as well have two arguments that are no `int`s. -/
theorem check_ignores_poisoned_calls_failing :
    (check .empty (failing [.scalar .int ⟨0, 1⟩])).scope.isPoisoned "f" = true ∧
      check .empty (failing [.scalar .str ⟨0, 1⟩, .dict [] ⟨1, 2⟩]) =
        check .empty (failing [.scalar .int ⟨0, 1⟩]) := by
  have hpoisoned : (check .empty (failing [.scalar .int ⟨0, 1⟩])).scope.isPoisoned "f" = true := by
    decide +kernel
  have hrebinds : ¬ FunctionDecl.Rebinds ⟨⟨"f", ⟨0, 1⟩⟩,
      [⟨⟨"x", ⟨2, 3⟩⟩, .named ⟨"Missing", ⟨4, 5⟩⟩, ⟨2, 5⟩⟩], .named ⟨"int", ⟨6, 7⟩⟩, [], ⟨0, 7⟩⟩
      "f" := by
    simp [FunctionDecl.Rebinds]
  refine ⟨hpoisoned, (check_ignores_poisoned_calls .empty hpoisoned).1 _ ?_⟩
  refine .cons (.function hrebinds .nil) (.cons (.stmt (.expr ?_)) .nil)
  refine .call rfl fun i hi hi' => ?_
  obtain rfl := Nat.lt_one_iff.mp hi
  refine .dict rfl (fun i hi hi' => ?_) fun i hi hi' => ?_
  · obtain rfl := Nat.lt_one_iff.mp hi
    exact ⟨rfl, rfl⟩
  · obtain rfl := Nat.lt_one_iff.mp hi
    refine .anew rfl ?_ ?_
    · exact List.forall_mem_singleton.mpr (.scalar _ _)
    · refine List.forall_mem_cons.mpr ⟨.scalar _ _, List.forall_mem_singleton.mpr (.dict ?_)⟩
      exact List.forall_mem_nil _

end Module

end Conform
