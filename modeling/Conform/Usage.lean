import Conform.Globals
import Conform.Value

/-!
# Expressions and statements

What is wrong with the use of names, calls and values. Every expression is gone through in full: a
name has to mean something, a callee has to be callable, and the arguments of a call whose callee
has a signature have to be accepted by it. Where a type is expected of an expression, it has to be
accepted there besides.

Statements are taken in order, each in the scope that the ones before it have left. An assignment
gives its target the type of its annotation or, without one, keeps the type that the target has;
its value has to be accepted for that type. The body of a function starts in a scope of its own
that binds its parameters, and what it binds is not seen outside of it.
-/

namespace Conform

/-! ## Calls -/

/-- What is said of a fault in the call of `callee` with the given signature. -/
def CallFault.diagnostic (scope : Scope) (callee : Ident) (signature : Signature) (span : Span)
    (fault : CallFault) : Diagnostic :=
  match fault with
  | .arity _ found =>
    .mismatch signature.ty (callee.name ++ "(" ++ Nat.repr found ++ " arguments)") fault.mismatch
      span
  | .argument _ param arg _ => .mismatch param.ty (arg.describe scope) fault.mismatch arg.span
  | .result expected _ => .mismatch expected signature.returns.render fault.mismatch span

/-- What is wrong with a name as the callee of a call. -/
def calleeFindings (scope : Scope) (callee : Ident) : List Diagnostic :=
  match scope.callable? callee.name, scope.local? callee.name with
  | some _, _ => []
  | none, some (.typed ty) => [.notCallable callee.name ty.render callee.span]
  | none, some .untyped => []
  | none, none =>
    if scope.isBound callee.name then [] else [.unknownCallable callee.name callee.span]

/-- What is wrong with the arguments of a call, in a place that expects `context?` of it. -/
def callFindings (w : Widening) (scope : Scope) (callee : Ident) (args : List Expr) (span : Span)
    (context? : Option Ty) : List Diagnostic :=
  match scope.callable? callee.name with
  | some signature =>
    (signature.faults w scope args context?).map (CallFault.diagnostic scope callee signature span)
  | none => []

/-! ## Expressions -/

mutual

/-- What is wrong with the names and calls in an expression of which no type is expected. -/
def Expr.findings (w : Widening) (scope : Scope) : Expr → List Diagnostic
  | .scalar .. => []
  | .dict entries _ => Expr.findingsEntries w scope entries
  | .call callee args span =>
    calleeFindings scope callee ++ Expr.findingsAll w scope args ++
      callFindings w scope callee args span none
  | .name ident =>
    if scope.isBound ident.name then [] else [.undefinedName ident.name ident.span]

def Expr.findingsAll (w : Widening) (scope : Scope) : List Expr → List Diagnostic
  | [] => []
  | e :: rest => e.findings w scope ++ Expr.findingsAll w scope rest

/-- What is wrong in the value of each entry. -/
def Expr.findingsEntries (w : Widening) (scope : Scope) : List (Entry Expr) → List Diagnostic
  | [] => []
  | ⟨_, value, _⟩ :: rest => value.findings w scope ++ Expr.findingsEntries w scope rest

end

/-- What is wrong with an expression where `expected` is. -/
def Expr.findingsAt (w : Widening) (scope : Scope) (expected : Ty) (e : Expr) : List Diagnostic :=
  match e with
  | .call callee args span =>
    calleeFindings scope callee ++ Expr.findingsAll w scope args ++
      callFindings w scope callee args span (some expected)
  | e =>
    e.findings w scope ++
      match expected.valueMismatch? w scope e with
      | some cause => [.mismatch expected (e.describe scope) cause e.span]
      | none => []

/-- What is wrong with an expression where a type may be expected. -/
def Expr.findingsIn (w : Widening) (scope : Scope) (expected? : Option Ty) (e : Expr) :
    List Diagnostic :=
  match expected? with
  | some expected => e.findingsAt w scope expected
  | none => e.findings w scope

/-! ## Statements -/

/-- Where a statement stands: at the top level, or in the body of a function with a return type,
if its annotation has one. -/
inductive Place where
  | topLevel
  | body (returns? : Option Ty)

/-- Whether an assignment only tries to redefine a declared name. -/
def Assignment.isRedefinition (g : Globals) (place : Place) (a : Assignment) : Bool :=
  match place with
  | .topLevel => g.declares a.target.name
  | .body _ => false

/-- What is known of the target of an assignment once it is made. -/
def Assignment.bindingIn (g : Globals) (scope : Scope) (a : Assignment) : Binding :=
  match a.form with
  | some _ => a.binding g.known
  | none => (scope.local? a.target.name).getD .untyped

def Stmt.findings (w : Widening) (g : Globals) (place : Place) (scope : Scope) :
    Stmt → List Diagnostic
  | .expr value => value.findings w scope
  | .ret value? span =>
    match place with
    | .topLevel =>
      .returnOutsideFunction span ::
        match value? with
        | some value => value.findings w scope
        | none => []
    | .body returns? => (value?.getD (.scalar .none span)).findingsIn w scope returns?
  | .assign a =>
    if a.isRedefinition g place then a.value.findings w scope
    else
      a.unknown g.records ++ a.value.findingsIn w scope (a.bindingIn g scope).ty?

/-- The scope that a statement leaves. -/
def Stmt.leaves (g : Globals) (place : Place) (scope : Scope) : Stmt → Scope
  | .assign a =>
    if a.isRedefinition g place then scope
    else scope.bind a.target.name (a.bindingIn g scope)
  | _ => scope

/-- What is wrong with statements that follow one another. -/
def findingsOfBody (w : Widening) (g : Globals) (place : Place) :
    Scope → List Stmt → List Diagnostic
  | _, [] => []
  | scope, stmt :: rest =>
    stmt.findings w g place scope ++ findingsOfBody w g place (stmt.leaves g place scope) rest

/-! ## Functions and modules -/

/-- The scope in which the body of a function starts. -/
def FunctionDecl.bodyScope (g : Globals) (decl : FunctionDecl) : Scope :=
  decl.params.foldl
    (fun scope param => scope.bind param.name.name (.ofOption (param.form.denote? g.known)))
    g.scope.push

/-- What is wrong with the body of a function. -/
def FunctionDecl.findings (w : Widening) (g : Globals) (decl : FunctionDecl) : List Diagnostic :=
  findingsOfBody w g (.body (decl.returns.denote? g.known)) (decl.bodyScope g) decl.body

/-- What is wrong with function bodies and top-level statements, in the order of the items; the
top-level statements share the scope. -/
def findingsOfItems (w : Widening) (g : Globals) : Scope → List Item → List Diagnostic
  | _, [] => []
  | scope, .function decl :: rest => decl.findings w g ++ findingsOfItems w g scope rest
  | scope, .record _ :: rest => findingsOfItems w g scope rest
  | scope, .stmt s :: rest =>
    s.findings w g .topLevel scope ++ findingsOfItems w g (s.leaves g .topLevel scope) rest

end Conform
