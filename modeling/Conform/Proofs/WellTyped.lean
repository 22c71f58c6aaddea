import Conform.Proofs.Usage

/-!
# Well-typed modules

The rules that a module has to keep, stated on its syntax tree alone: no scope, no order of walking
and no finding occurs in them.

What a name means changes from statement to statement. `VariableAfter` says what is known of a
variable after some statements by looking back at them: the last annotation decides; without one the
variable is what it was before, and if it was nothing, an assignment leaves it untyped. `Site` puts
every statement of a module into its context that way.

The rules are those of `Module.WellTyped`:

1. declared names are pairwise different, and no top-level assignment targets one;
2. bases are records, annotations mention records only, no record reaches itself, and neither the
   flattened fields of a record nor the parameters of a function repeat a name;
3. no `return` stands at the top level;
4. names, callees and arguments are used well, at any depth of any expression;
5. every value in a place with a declared type conforms to it — what a function returns, what is
   assigned with an annotation, and what is assigned without one to a variable with a type.
-/

namespace Conform

open Relation (TransGen)

/-! ## Contexts of statements -/

/-- What is known of a variable after some statements. -/
inductive VariableAfter (types : String → Ty → Prop) (Variable : String → Binding → Prop)
    (stmts : List Stmt) (name : String) : Binding → Prop
  | annotated {before after : List Stmt} {a : Assignment} {ty : Ty}
      (hsplit : stmts = before ++ .assign a :: after) (hty : a.Assigns types name ty)
      (hlast : ∀ b, .assign b ∈ after → b.target.name = name → b.form = none) :
      VariableAfter types Variable stmts name (.typed ty)
  | kept {binding : Binding}
      (hplain : ∀ a, .assign a ∈ stmts → a.target.name = name → a.form = none)
      (h : Variable name binding) : VariableAfter types Variable stmts name binding
  | plain {a : Assignment}
      (hplain : ∀ a, .assign a ∈ stmts → a.target.name = name → a.form = none)
      (hmem : .assign a ∈ stmts) (hname : a.target.name = name)
      (hnew : ∀ binding, ¬ Variable name binding) :
      VariableAfter types Variable stmts name .untyped

/-- The context that statements leave. -/
def Context.after (types : String → Ty → Prop) (Γ : Context) (stmts : List Stmt) : Context :=
  { Γ with Variable := VariableAfter types Γ.Variable stmts }

/-- The context in which the body of a function starts: its parameters hide what is around it. -/
def FunctionDecl.context (types : String → Ty → Prop) (Γ : Context) (decl : FunctionDecl) :
    Context :=
  { Γ with
    Variable := fun name binding =>
      (∃ param ∈ decl.params, param.name.name = name ∧
        ∃ ty, param.form.Denotes types ty ∧ binding = .typed ty) ∨
      (∀ param ∈ decl.params, param.name.name ≠ name) ∧ Γ.Variable name binding }

namespace Module

/-- The types of all records that a module declares. -/
def RecordTypes (m : Module) : String → Ty → Prop :=
  RecordType m.records

/-- What names mean around every statement of a module. -/
def context (m : Module) : Context where
  Variable := m.GlobalVariable m.RecordTypes
  Function name signature :=
    ∃ decl ∈ m.functions, decl.name.name = name ∧ decl.HasSignature m.RecordTypes signature
  Declared name := ∃ ident ∈ m.declared, ident.name = name

/-- A statement of a module in its context, with the return type of the function around it. -/
inductive Site (m : Module) : Context → Option TyForm → Stmt → Prop
  | topLevel {before after : List Stmt} {stmt : Stmt}
      (hsplit : m.statements = before ++ stmt :: after) :
      Site m (m.context.after m.RecordTypes before) none stmt
  | body {decl : FunctionDecl} {before after : List Stmt} {stmt : Stmt} (hmem : decl ∈ m.functions)
      (hsplit : decl.body = before ++ stmt :: after) :
      Site m ((decl.context m.RecordTypes m.context).after m.RecordTypes before)
        (some decl.returns) stmt

end Module

/-! ## What statements ask -/

namespace Stmt

/-- The expression that a statement evaluates. -/
inductive Evaluates : Stmt → Expr → Prop
  | expr (value : Expr) : Evaluates (.expr value) value
  | ret (value : Expr) (span : Span) : Evaluates (.ret (some value) span) value
  | assign (a : Assignment) : Evaluates (.assign a) a.value

/-- A statement puts an expression where a type is declared. A `return` without a value returns
`None`. -/
inductive Expects (types : String → Ty → Prop) (Γ : Context) (returns? : Option TyForm) :
    Stmt → Ty → Expr → Prop
  | ret {returns : TyForm} {value? : Option Expr} {span : Span} {ty : Ty}
      (hreturns : returns? = some returns) (hty : returns.Denotes types ty) :
      Expects types Γ returns? (.ret value? span) ty (value?.getD (.scalar .none span))
  | annotated {a : Assignment} {form : TyForm} {ty : Ty} (hform : a.form = some form)
      (hty : form.Denotes types ty) : Expects types Γ returns? (.assign a) ty a.value
  | plain {a : Assignment} {ty : Ty} (hform : a.form = none)
      (hvariable : Γ.Variable a.target.name (.typed ty)) :
      Expects types Γ returns? (.assign a) ty a.value

end Stmt

/-! ## The rules -/

namespace Module

/-- The annotations of a module, wherever they stand. -/
inductive Annotates (m : Module) : TyForm → Prop
  | field {decl : RecordDecl} {field : FieldDecl} (hmem : decl ∈ m.records)
      (hfield : field ∈ decl.fields) : Annotates m field.form
  | function {decl : FunctionDecl} {form : TyForm} (hmem : decl ∈ m.functions)
      (h : decl.Annotates form) : Annotates m form
  | assignment {a : Assignment} {form : TyForm} (hmem : .assign a ∈ m.statements)
      (hform : a.form = some form) : Annotates m form
  | body {decl : FunctionDecl} {a : Assignment} {form : TyForm} (hmem : decl ∈ m.functions)
      (hassign : .assign a ∈ decl.body) (hform : a.form = some form) : Annotates m form

/-- The rules for declarations and annotations. -/
structure WellDeclared (m : Module) : Prop where
  distinct : (m.declared.map Ident.name).Nodup
  undeclared : ∀ a, .assign a ∈ m.statements → ∀ ident ∈ m.declared, ident.name ≠ a.target.name
  bases : ∀ decl ∈ m.records, ∀ base ∈ decl.bases, ∃ other ∈ m.records,
    other.name.name = base.name
  annotations : ∀ form, m.Annotates form → ∀ ident, form.Mentions ident →
    ∃ decl ∈ m.records, decl.name.name = ident.name
  acyclic : ∀ name, ¬ TransGen (Refers m.records) name name
  fields : ∀ decl ∈ m.records, ∀ names, decl.FlattensTo m.records names → names.Nodup
  params : ∀ decl ∈ m.functions, (decl.params.map fun param => param.name.name).Nodup

/-- The rules for a whole module. -/
structure WellTyped (w : Widening) (m : Module) : Prop extends WellDeclared m where
  noReturn : ∀ value? span, .ret value? span ∉ m.statements
  used : ∀ Γ returns? stmt e, m.Site Γ returns? stmt → stmt.Evaluates e → e.WellUsed w Γ
  conforms : ∀ Γ returns? stmt ty e, m.Site Γ returns? stmt →
    stmt.Expects m.RecordTypes Γ returns? ty e → Conforms w Γ ty e

end Module

end Conform
