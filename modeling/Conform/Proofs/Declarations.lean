import Conform.Proofs.Alike

/-!
# Modules that declare the same

Items of a module can be left out or changed without an effect on what the module declares: a
redefinition, the body of a function, an assignment to a declared name. `SameDeclarations` says
which parts of two modules have to agree for that, and it is little: the names have to be taken by
the same definitions, and what is in force in one module has to be in force in the other. Then **the
scopes are the same** (`SameDeclarations.scope`), tables and all.

Everything that is found on the other module can therefore be said with the declarations of the
first, part by part (`SameDeclarations.mem_globals_findings_iff`, `mem_findingsOfItems_iff`). What
leaving something out changes is then only a matter of which functions and statements there are.

What is evaluated is no part of a declaration: without its bodies and values a module declares what
it does with them (`Module.globals_bare`).
-/

namespace Conform

/-- The declaration of a function without its body. -/
def FunctionDecl.bare (decl : FunctionDecl) : FunctionDecl :=
  { decl with body := [] }

theorem FunctionDecl.name_bare (decl : FunctionDecl) : decl.bare.name = decl.name := rfl

/-- What does not depend on a body holds of some function exactly if it does without the bodies. -/
theorem FunctionDecl.exists_mem_map_bare {p : FunctionDecl → Prop}
    (hp : ∀ decl, p decl.bare ↔ p decl) {decls : List FunctionDecl} :
    (∃ decl ∈ decls.map FunctionDecl.bare, p decl) ↔ ∃ decl ∈ decls, p decl := by
  simp only [List.mem_map, exists_exists_and_eq_and, hp]

/-- Only the names that are declared matter to what an assignment binds. -/
theorem Assignment.bindGlobal_congr {declared declared' : List Ident}
    (h : ∀ name, identNamed? declared name = identNamed? declared' name)
    (known : String → Option Ty) :
    Assignment.bindGlobal known declared = Assignment.bindGlobal known declared' := by
  funext scope a
  unfold Assignment.bindGlobal
  rw [h]

namespace Module

/-- The assignments to names that are not declared, which are variables. -/
def variableAssignments (m : Module) : List Assignment :=
  m.assignments.filter fun a => (identNamed? m.declared a.target.name).isNone

/-- The other assignments bind nothing. -/
theorem globals_scope_eq_variables (m : Module) :
    m.globals.scope = m.variableAssignments.foldl
      (Assignment.bindGlobal m.globals.known m.declared) m.scopeOfFunctions := by
  rw [globals_scope_eq, variableAssignments, List.foldl_filter]
  congr 1
  funext scope a
  unfold Assignment.bindGlobal
  cases identNamed? m.declared a.target.name <;> rfl

/-- Two modules declare the same. The bodies of functions are no part of that. -/
structure SameDeclarations (m m' : Module) : Prop where
  named : ∀ name, identNamed? m.declared name = identNamed? m'.declared name
  records : m.recordsInForce = m'.recordsInForce
  functions : m.functionsInForce.map FunctionDecl.bare = m'.functionsInForce.map FunctionDecl.bare
  assigned : m.variableAssignments = m'.variableAssignments

namespace SameDeclarations

protected theorem refl (m : Module) : m.SameDeclarations m :=
  ⟨fun _ => rfl, rfl, rfl, rfl⟩

/-- Changes of functions that only concern their bodies, and of statements that leave the
assignments to variables, leave the declarations. -/
theorem of_map {onFunction : FunctionDecl → FunctionDecl} {onStmt : Stmt → Stmt} (m : Module)
    (hname : ∀ decl, (onFunction decl).name = decl.name)
    (hbare : ∀ decl, (onFunction decl).bare = decl.bare)
    (hassigned : (m.map onFunction onStmt).variableAssignments = m.variableAssignments) :
    m.SameDeclarations (m.map onFunction onStmt) where
  named name := by rw [declared_map hname]
  records := (recordsInForce_map hname m).symm
  functions := by
    rw [functionsInForce_map hname, List.map_map]
    exact List.map_congr_left fun decl _ => (hbare decl).symm
  assigned := hassigned.symm

variable {m m' : Module} (h : m.SameDeclarations m') {d : Diagnostic}

include h

protected theorem symm : m'.SameDeclarations m :=
  ⟨fun name => (h.named name).symm, h.records.symm, h.functions.symm, h.assigned.symm⟩

protected theorem trans {m'' : Module} (h' : m'.SameDeclarations m'') : m.SameDeclarations m'' :=
  ⟨fun name => (h.named name).trans (h'.named name), h.records.trans h'.records,
    h.functions.trans h'.functions, h.assigned.trans h'.assigned⟩

theorem known : m.globals.known = m'.globals.known :=
  congrArg (fun records => (Resolution.all records).typeOf?) h.records

theorem scopeOfFunctions : m.scopeOfFunctions = m'.scopeOfFunctions := by
  have hrecords : m.scopeOfRecords = m'.scopeOfRecords := by
    unfold scopeOfRecords
    rw [h.records, h.known]
  -- A function is declared without a look at its body.
  have hbare : ∀ n : Module, n.scopeOfFunctions = (n.functionsInForce.map FunctionDecl.bare).foldl
      (FunctionDecl.declareIn n.globals.known) n.scopeOfRecords := by
    intro n
    rw [List.foldl_map]
    rfl
  rw [hbare, hbare, h.functions, h.known, hrecords]

/-- The same is declared, in the same order. -/
theorem scope : m.globals.scope = m'.globals.scope := by
  rw [globals_scope_eq_variables, globals_scope_eq_variables, h.assigned, h.known,
    h.scopeOfFunctions, Assignment.bindGlobal_congr h.named]

theorem alike : m.globals.Alike m'.globals where
  known := h.known
  declares name := congrArg Option.isSome (h.named name)
  record name := by
    show (recordNamed? m.recordsInForce name).isSome = (recordNamed? m'.recordsInForce name).isSome
    rw [h.records]
  scope := by
    rw [h.scope]
    exact ⟨fun _ => rfl, fun _ => rfl, fun _ => rfl, fun _ => rfl⟩

/-- The repeated parameters are the same. -/
theorem mem_malformed_iff :
    (∃ decl ∈ m.functionsInForce, d ∈ decl.malformed m.globals.known) ↔
      ∃ decl ∈ m'.functionsInForce, d ∈ decl.malformed m'.globals.known := by
  rw [← FunctionDecl.exists_mem_map_bare fun _ => Iff.rfl, h.functions, h.known,
    FunctionDecl.exists_mem_map_bare fun _ => Iff.rfl]

/-- What is wrong with the declarations of a module that declares the same, part by part. -/
theorem mem_globals_findings_iff :
    d ∈ m'.globals.findings m' ↔
      d ∈ m'.redefinitions ∨ d ∈ (Resolution.all m.recordsInForce).reports ∨
      (∃ decl ∈ m'.functions, d ∈ decl.unknown m.recordsInForce) ∨
      (∃ decl ∈ m.functionsInForce, d ∈ decl.malformed m.globals.known) ∨
      ∃ a ∈ m'.assignments, d ∈ a.globalFindings m.recordsInForce m.declared := by
  have hassignments : ∀ a : Assignment, a.globalFindings m'.recordsInForce m.declared =
      a.globalFindings m'.recordsInForce m'.declared := by
    intro a
    unfold Assignment.globalFindings
    rw [h.named]
  rw [Module.mem_globals_findings_iff, h.mem_malformed_iff, h.records]
  simp only [hassignments]

/-- What is found in the bodies and statements of a module that declares the same. -/
theorem mem_findingsOfItems_iff {w : Widening} :
    d ∈ findingsOfItems w m'.globals m'.globals.scope.push m'.items ↔
      (∃ decl ∈ m'.functions, d ∈ decl.findings w m.globals) ∨
      d ∈ findingsOfBody w m.globals .topLevel m.globals.scope.push m'.statements := by
  rw [Conform.mem_findingsOfItems_iff, h.alike.findingsOfBody h.alike.scope.push]
  simp only [h.alike.functionFindings, mem_functions_iff_mem_items]
  rfl

end SameDeclarations

end Module

/-! ## Modules without bodies and values -/

/-- A statement without the expression that it evaluates. -/
def Stmt.bare : Stmt → Stmt
  | .expr value => .expr (.scalar .none value.span)
  | .ret _ span => .ret none span
  | .assign a => .assign { a with value := .scalar .none a.span }

namespace Module

/-- A module without the bodies of its functions and the values of its statements. -/
def bare (m : Module) : Module :=
  m.map FunctionDecl.bare Stmt.bare

theorem assignments_bare (m : Module) :
    m.bare.assignments = m.assignments.map fun a => { a with value := .scalar .none a.span } := by
  rw [assignments_eq, assignments_eq, bare, statements_map, List.filterMap_map, List.map_filterMap]
  refine List.filterMap_congr fun s _ => ?_
  cases s <;> rfl

/-- What a module declares depends on no body and on no value. -/
theorem globals_bare (m : Module) : m.bare.globals = m.globals := by
  have hdeclared : m.bare.declared = m.declared := declared_map FunctionDecl.name_bare m
  have hrecords : m.bare.recordsInForce = m.recordsInForce :=
    recordsInForce_map FunctionDecl.name_bare m
  have hfunctions : m.bare.functionsInForce = m.functionsInForce.map FunctionDecl.bare :=
    functionsInForce_map FunctionDecl.name_bare m
  have hknown : m.bare.globals.known = m.globals.known :=
    congrArg (fun records => (Resolution.all records).typeOf?) hrecords
  have hscope : m.bare.globals.scope = m.globals.scope := by
    rw [globals_scope_eq, globals_scope_eq, assignments_bare, List.foldl_map, scopeOfFunctions,
      scopeOfFunctions, hfunctions, List.foldl_map, scopeOfRecords, scopeOfRecords, hknown,
      hdeclared, hrecords]
    rfl
  show Globals.mk m.bare.declared m.bare.recordsInForce (Resolution.all m.bare.recordsInForce)
    m.bare.globals.scope = m.globals
  rw [hdeclared, hrecords, hscope]
  rfl

theorem globals_findings_bare (m : Module) (g : Globals) : g.findings m.bare = g.findings m := by
  rw [Globals.findings, Globals.findings, assignments_bare, List.flatMap_map, bare,
    redefinitions_map FunctionDecl.name_bare, functionsRanked_map FunctionDecl.name_bare,
    List.flatMap_map]
  rfl

end Module

end Conform
