import Conform.Proofs.Findings

/-!
# What a finding points at

A finding carries names and spans. `Module.Justifies` says, rule by rule, which node of the module a
finding of each kind points at and what about that node is at fault, in terms of the module alone.
**Every finding is justified** (`check_justified`), so no name and no span of it is made
up or taken from somewhere else.

The search through the records has its own account (`Resolution.Justified`), calls and values have
the rules of `Expr.Gives`; what remains is to say which part of the tree they speak of. Only the
`None` of a `return` without a value stands nowhere: its mismatch points at the `return`.
-/

namespace Conform

open Relation (TransGen)

/-! ## Nodes of a module -/

/-- An expression inside a part of another one is inside that other one. -/
theorem Expr.Contains.trans {e part inner : Expr} (h : e.Contains part)
    (h' : part.Contains inner) : e.Contains inner := by
  induction h with
  | refl _ => exact h'
  | value hmem _ ih => exact .value hmem (ih h')
  | arg hmem _ ih => exact .arg hmem (ih h')

namespace Module

/-- An identifier that stands for a type: a base of a record, or a name inside an annotation. -/
def NamesType (m : Module) (ident : Ident) : Prop :=
  (∃ decl ∈ m.records, ident ∈ decl.bases) ∨ ∃ form, m.Annotates form ∧ form.Mentions ident

/-- A statement of a module, at the top level or in the body of a function. -/
def Has (m : Module) (stmt : Stmt) : Prop :=
  stmt ∈ m.statements ∨ ∃ decl ∈ m.functions, stmt ∈ decl.body

/-- An expression of a module, at any depth of the expression of a statement. -/
def Contains (m : Module) (part : Expr) : Prop :=
  ∃ stmt e, m.Has stmt ∧ stmt.Evaluates e ∧ e.Contains part

variable {m : Module} {d : Diagnostic}

theorem mem_records_of_inForce {decl : RecordDecl} (h : decl ∈ m.recordsInForce) :
    decl ∈ m.records := by
  obtain ⟨before, after, hitems, _⟩ := mem_recordsInForce_iff.mp h
  exact List.mem_filterMap.mpr ⟨.record decl, by rw [hitems]; simp, rfl⟩

theorem NamesType.of_refersTo {decl : RecordDecl} (hmem : decl ∈ m.recordsInForce) {ident : Ident}
    (h : decl.RefersTo ident) : m.NamesType ident := by
  have hrecord := mem_records_of_inForce hmem
  rcases h with hbase | ⟨field, hfield, hmentions⟩
  · exact Or.inl ⟨decl, hrecord, hbase⟩
  · exact Or.inr ⟨field.form, .field hrecord hfield, hmentions⟩

theorem Reaches.has {place : Place} {scope : Scope} {stmt : Stmt}
    (h : m.Reaches place scope stmt) : m.Has stmt := by
  cases h with
  | topLevel hsplit => exact Or.inl (by rw [hsplit]; simp)
  | body hmem hsplit => exact Or.inr ⟨_, hmem, by rw [hsplit]; simp⟩

theorem Has.annotates {a : Assignment} (h : m.Has (.assign a)) {form : TyForm}
    (hform : a.form = some form) : m.Annotates form := by
  rcases h with hmem | ⟨decl, hmem, hbody⟩
  · exact .assignment hmem hform
  · exact .body hmem hbody hform

/-! ## Justified findings -/

/-- The node of a module that a finding points at, and what is at fault there. -/
inductive Justifies (m : Module) : Diagnostic → Prop
  | unknownType {ident : Ident} (hnames : m.NamesType ident)
      (hnone : ∀ decl ∈ m.recordsInForce, decl.name.name ≠ ident.name) :
      Justifies m (.unknownType ident.name ident.span)
  | recursiveRecord {ident : Ident} (hnames : m.NamesType ident)
      (hcycle : TransGen (Refers m.recordsInForce) ident.name ident.name) :
      Justifies m (.recursiveRecord ident.name ident.span)
  | malformedRecord {decl : RecordDecl} {names : List String} {field : String}
      (hmem : decl ∈ m.recordsInForce) (hflattens : decl.FlattensTo m.recordsInForce names)
      (hrepeat : FirstRepeat names field) :
      Justifies m (.malformedType decl.name.name (.duplicateField decl.name.name field)
        decl.name.span)
  | malformedFunction {decl : FunctionDecl} {param : String} (hmem : decl ∈ m.functionsInForce)
      (hrepeat : FirstRepeat (decl.params.map fun param => param.name.name) param) :
      Justifies m (.malformedType decl.name.name (.duplicateParam param) decl.name.span)
  | redefinition {item : Item} {ident first : Ident} (hredefines : m.Redefines item ident first)
      (hfirst : identNamed? m.declared ident.name = some first) :
      Justifies m (.duplicateDefinition ident.name ident.span first.span)
  | reassignment {a : Assignment} {first : Ident} (hmem : .assign a ∈ m.statements)
      (hfirst : identNamed? m.declared a.target.name = some first) :
      Justifies m (.duplicateDefinition a.target.name a.target.span first.span)
  | unknownCallable {callee : Ident} {args : List Expr} {span : Span}
      (hcall : m.Contains (.call callee args span)) :
      Justifies m (.unknownCallable callee.name callee.span)
  | notCallable {callee : Ident} {args : List Expr} {span : Span} {found : String}
      (hcall : m.Contains (.call callee args span)) :
      Justifies m (.notCallable callee.name found callee.span)
  | undefinedName {ident : Ident} (hname : m.Contains (.name ident)) :
      Justifies m (.undefinedName ident.name ident.span)
  | returnOutsideFunction {value? : Option Expr} {span : Span}
      (hmem : .ret value? span ∈ m.statements) : Justifies m (.returnOutsideFunction span)
  | mismatch {e : Expr} {expected : Ty} {found : String} {cause : Mismatch}
      (he : m.Contains e) : Justifies m (.mismatch expected found cause e.span)
  | bareReturn {decl : FunctionDecl} {span : Span} {expected : Ty} {found : String}
      {cause : Mismatch} (hmem : decl ∈ m.functions) (hret : .ret none span ∈ decl.body) :
      Justifies m (.mismatch expected found cause span)

/-! ## Findings on declarations -/

theorem justifies_of_mem_unknown {form : TyForm} (hform : m.Annotates form)
    (h : d ∈ form.unknown m.recordsInForce) : m.Justifies d := by
  obtain ⟨ident, hmentions, hnone, rfl⟩ := TyForm.mem_unknown_iff.mp h
  exact .unknownType (Or.inr ⟨form, hform, hmentions⟩) (recordNamed?_eq_none_iff.mp hnone)

/-- What the search through the records reports. -/
theorem justifies_of_justified (h : Resolution.Justified m.recordsInForce d) : m.Justifies d := by
  cases h with
  | unknown hmem href hnone =>
    exact .unknownType (.of_refersTo hmem href) (recordNamed?_eq_none_iff.mp hnone)
  | recursive hmem href hcycle => exact .recursiveRecord (.of_refersTo hmem href) hcycle
  | @malformed decl fields cause hmem hfields hcause =>
    obtain ⟨field, hrepeat, rfl⟩ := Ty.record?_eq_error_iff.mp hcause
    -- The fields that repeat are those of the type, and have the flattened names.
    have hflattens := hfields.flattensTo fun name fs n hty => hty.flattensTo n fs rfl
    exact .malformedRecord hmem hflattens hrepeat

theorem justifies_of_mem_malformed {decl : FunctionDecl} (hmem : decl ∈ m.functionsInForce)
    (h : d ∈ decl.malformed m.globals.known) : m.Justifies d := by
  unfold FunctionDecl.malformed at h
  split at h
  · next cause hcause =>
    rw [List.mem_singleton] at h
    subst h
    obtain ⟨params, returns, hparams, _, hmake⟩ := FunctionDecl.signature?_eq_some_iff.mp hcause
    obtain ⟨param, hrepeat, rfl⟩ := Signature.make?_eq_error_iff.mp hmake
    rw [FunctionDecl.map_name_of_declares hparams] at hrepeat
    exact .malformedFunction hmem hrepeat
  · exact absurd h (by simp)

/-- The definition that an item redefines is the first of its name in the whole module. -/
theorem Redefines.identNamed?_declared {item : Item} {ident first : Ident}
    (h : m.Redefines item ident first) : identNamed? m.declared ident.name = some first := by
  obtain ⟨before, after, hitems, _, hfirst⟩ := h
  rw [declared, hitems, List.filterMap_append, identNamed?_append, hfirst, Option.some_or]

theorem justifies_of_mem_globals_findings (h : d ∈ m.globals.findings m) : m.Justifies d := by
  rcases mem_globals_findings_iff.mp h with
    h | h | ⟨decl, hmem, h⟩ | ⟨decl, hmem, h⟩ | ⟨a, hmem, h⟩
  · obtain ⟨item, ident, first, hredefines, rfl⟩ := mem_redefinitions_iff.mp h
    exact .redefinition hredefines hredefines.identNamed?_declared
  · obtain ⟨hrun, _⟩ := Resolution.all_reached m.recordsInForce
    exact justifies_of_justified (Resolution.justified_of_mem_reports hrun h)
  · obtain ⟨form, hform, h⟩ := FunctionDecl.mem_unknown_iff.mp h
    exact justifies_of_mem_unknown (.function hmem hform) h
  · exact justifies_of_mem_malformed hmem h
  · rw [mem_assignments_iff] at hmem
    unfold Assignment.globalFindings at h
    split at h
    · next first hfirst =>
      rw [List.mem_singleton] at h
      subst h
      exact .reassignment hmem hfirst
    · obtain ⟨form, hform, h⟩ := Assignment.mem_unknown_iff.mp h
      exact justifies_of_mem_unknown (.assignment hmem hform) h

/-! ## Findings on statements -/

variable {w : Widening} {scope : Scope}

/-- What is found at an expression of a module points at it, at its callee or at an argument. -/
theorem justifies_of_gives {context? : Option Ty} {part : Expr} (hpart : m.Contains part)
    (h : part.Gives w scope context? d) : m.Justifies d := by
  cases h with
  | undefinedName _ => exact .undefinedName hpart
  | unknownCallable _ => exact .unknownCallable hpart
  | notCallable _ _ => exact .notCallable hpart
  | value _ _ => exact .mismatch hpart
  | @fault _ callee args span signature fault _ hfault =>
    rcases mem_faults_iff.mp hfault with ⟨_, rfl⟩ | ⟨_, hfault⟩
    · exact .mismatch hpart
    · rcases hfault with ⟨index, param, arg, cause, _, harg, _, rfl⟩ | ⟨context, cause, _, _, rfl⟩
      · obtain ⟨stmt, e, hhas, hevaluates, hcontains⟩ := hpart
        have harg : (Expr.call callee args span).Contains arg :=
          .arg (List.mem_of_getElem? harg) (.refl arg)
        exact .mismatch (e := arg) ⟨stmt, e, hhas, hevaluates, hcontains.trans harg⟩
      · exact .mismatch hpart

theorem justifies_of_reaches {place : Place} {stmt : Stmt} (hreaches : m.Reaches place scope stmt)
    (h : stmt.Gives w m.globals place scope d) : m.Justifies d := by
  cases h with
  | evaluated hevaluates hholds h =>
    exact justifies_of_gives ⟨stmt, _, hreaches.has, hevaluates, hholds.contains⟩ h
  | bareReturn hplace _ =>
    cases hreaches with
    | topLevel _ => exact Place.noConfusion hplace
    | body hmem hsplit => exact .bareReturn hmem (by rw [hsplit]; simp)
  | @outside value? span hplace =>
    cases hreaches with
    | topLevel hsplit =>
      have hmem : .ret value? span ∈ m.statements := by rw [hsplit]; simp
      exact .returnOutsideFunction hmem
    | body _ _ => exact Place.noConfusion hplace
  | unknownType _ h =>
    obtain ⟨form, hform, h⟩ := Assignment.mem_unknown_iff.mp h
    exact justifies_of_mem_unknown (hreaches.has.annotates hform) h

/-- Every finding points at a node of the module that justifies it. -/
theorem check_justified (w : Widening) (m : Module) :
    ∀ d ∈ (check w m).diagnostics, m.Justifies d := by
  intro d h
  rcases mem_diagnostics_iff_gives.mp h with h | ⟨place, scope, stmt, hreaches, h⟩
  · exact justifies_of_mem_globals_findings h
  · exact justifies_of_reaches hreaches h

/-- A record and a function of one name; the function returns nothing where an `int` is due. -/
def disputed : Module :=
  ⟨[.record ⟨⟨"A", ⟨0, 1⟩⟩, [], true, [], ⟨0, 2⟩⟩,
    .function ⟨⟨"A", ⟨3, 4⟩⟩, [], .named ⟨"int", ⟨5, 6⟩⟩, [.ret none ⟨7, 8⟩], ⟨3, 9⟩⟩]⟩

/-- The one finding points at the second name and at the first, the other at the `return`. -/
theorem check_justified_disputed :
    .duplicateDefinition "A" ⟨3, 4⟩ ⟨0, 1⟩ ∈ (check .empty disputed).diagnostics ∧
      disputed.Justifies (.duplicateDefinition "A" ⟨3, 4⟩ ⟨0, 1⟩) ∧
      .mismatch (.scalar .int) "None" ⟨.incompatible "int" "None", []⟩ ⟨7, 8⟩ ∈
        (check .empty disputed).diagnostics ∧
      disputed.Justifies
        (.mismatch (.scalar .int) "None" ⟨.incompatible "int" "None", []⟩ ⟨7, 8⟩) := by
  have hdefinition : .duplicateDefinition "A" ⟨3, 4⟩ ⟨0, 1⟩ ∈
      (check .empty disputed).diagnostics := by decide +kernel
  have hreturn : .mismatch (.scalar .int) "None" ⟨.incompatible "int" "None", []⟩ ⟨7, 8⟩ ∈
      (check .empty disputed).diagnostics := by decide +kernel
  exact ⟨hdefinition, check_justified .empty disputed _ hdefinition, hreturn,
    check_justified .empty disputed _ hreturn⟩

end Module

end Conform
