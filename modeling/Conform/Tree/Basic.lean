import Conform.Scalar
import Conform.Span

/-!
# Syntax trees

What a module consists of, as written: record and function declarations and statements, the
annotations that name types, and the expressions. Every node says where it stands.
-/

namespace Conform

/-- A name as written. -/
structure Ident where
  name : String
  span : Span
deriving DecidableEq

/-- A type as written. -/
inductive TyForm where
  /-- A scalar keyword or the name of a record. -/
  | named (ident : Ident)
  | callable (params : List TyForm) (returns : TyForm) (span : Span)

/-- An entry of a dict literal, with a value of type `ε`. -/
structure Entry (ε : Type) where
  key : String
  value : ε
  span : Span

/-- An expression. A scalar literal is known by its kind alone. -/
inductive Expr where
  | scalar (kind : Scalar) (span : Span)
  | dict (entries : List (Entry Expr)) (span : Span)
  | call (callee : Ident) (args : List Expr) (span : Span)
  | name (ident : Ident)

def Expr.span : Expr → Span
  | .scalar _ span => span
  | .dict _ span => span
  | .call _ _ span => span
  | .name ident => ident.span

/-- An assignment, with or without an annotation of its target. -/
structure Assignment where
  target : Ident
  form : Option TyForm
  value : Expr
  span : Span

/-- A statement. -/
inductive Stmt where
  | expr (value : Expr)
  | ret (value : Option Expr) (span : Span)
  | assign (assignment : Assignment)

/-- A parameter of a function declaration. -/
structure ParamDecl where
  name : Ident
  form : TyForm
  span : Span

/-- A function declaration. -/
structure FunctionDecl where
  name : Ident
  params : List ParamDecl
  returns : TyForm
  body : List Stmt
  span : Span

/-- A field of a record declaration. Without a marker of its own it is required exactly if the
record is total. -/
structure FieldDecl where
  name : Ident
  form : TyForm
  required : Option Bool
  span : Span

/-- A record declaration, with the records whose fields it takes over. -/
structure RecordDecl where
  name : Ident
  bases : List Ident
  total : Bool
  fields : List FieldDecl
  span : Span

/-- A part of a module. -/
inductive Item where
  | function (decl : FunctionDecl)
  | record (decl : RecordDecl)
  | stmt (stmt : Stmt)

/-- A module: its items in the order of the source. -/
structure Module where
  items : List Item

/-- The functions that a module declares, in the order of the source. -/
def Module.functions (m : Module) : List FunctionDecl :=
  m.items.filterMap fun
    | .function decl => some decl
    | _ => none

/-- The records that a module declares, in the order of the source. -/
def Module.records (m : Module) : List RecordDecl :=
  m.items.filterMap fun
    | .record decl => some decl
    | _ => none

end Conform
