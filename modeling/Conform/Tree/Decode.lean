import Conform.Json.Reader
import Conform.Json.Shape
import Conform.Tree.Encode

/-!
# Reading a tree

A tree is read from its JSON form. Beyond what is written, a structure may have its parts in any
order and among others, may be an array of all its parts, and may leave out `bases` (none), `total`
(true), `required` and `annotation` (absent); a scalar kind may be an object with the content
`null`. Nothing else is read.

Arrays and objects may be open inside one another up to a number of levels; each reading function
is given the levels left, and its own array or object takes one. What is skipped takes none.
-/

namespace Conform

/-- How many arrays and objects of a tree may be open at once. -/
def maxLevels : Nat := 127

/-- A part that may be absent. -/
def Json.option? {α : Type} (decode : Json → Option α) : Json → Option (Option α)
  | .null => some none
  | value => (decode value).map some

/-- A part that may be absent and may be left out. -/
def Json.optionalPart? {α : Type} (decode : Json → Option α) : Option Json → Option (Option α)
  | some value => value.option? decode
  | none => some none

/-- A part that stands for `default` where it is left out. -/
def Json.partOr {α : Type} (default : α) (decode : Json → Option α) : Option Json → Option α
  | some value => decode value
  | none => some default

def Json.list? {α : Type} (decode : Json → Option α) (value : Json) : Option (List α) :=
  value.elements?.bind fun elements => elements.mapM decode

/-- A bound of a span: a natural number below `2 ^ 64`. -/
def Json.bound? : Json → Option UInt64
  | .nat value => if value < UInt64.size then some (UInt64.ofNat value) else none
  | _ => none

def Span.ofJson? : Nat → Json → Option Span
  | _ + 1, .arr [start, stop] => do return ⟨← start.bound?, ← stop.bound?⟩
  | _, _ => none

def Ident.ofJson? : Nat → Json → Option Ident
  | levels + 1, value =>
    match value.parts? ["name", "span"] with
    | some [some name, some span] => do return ⟨← name.text?, ← Span.ofJson? levels span⟩
    | _ => none
  | _, _ => none

def Scalar.ofLabel? (label : String) : Option Scalar :=
  Scalar.all.find? fun kind => kind.label = label

def Scalar.ofJson? : Nat → Json → Option Scalar
  | _, .str label => ofLabel? label
  | _ + 1, .obj [(label, .null)] => ofLabel? label
  | _, _ => .none

def TyForm.ofJson? : Nat → Json → Option TyForm
  | levels + 3, value =>
    match value.variant? with
    | some ("Named", content) => (Ident.ofJson? (levels + 2) content).map .named
    | some ("Callable", content) =>
      match content.parts? ["params", "returns", "span"] with
      | some [some params, some returns, some span] => do
        return .callable (← params.list? (TyForm.ofJson? levels))
          (← TyForm.ofJson? (levels + 1) returns) (← Span.ofJson? (levels + 1) span)
      | _ => none
    | _ => none
  | _, _ => none

/-- Reads an entry of a dict literal, given how its value is read. -/
def Entry.ofJson? {ε : Type} (decode : Json → Option ε) (levels : Nat) (value : Json) :
    Option (Entry ε) :=
  match value.parts? ["key", "value", "span"] with
  | some [some key, some value, some span] => do
    return ⟨← key.text?, ← decode value, ← Span.ofJson? levels span⟩
  | _ => none

def Expr.ofJson? : Nat → Json → Option Expr
  | levels + 3, value =>
    match value.variant? with
    | some ("Scalar", .arr [kind, span]) => do
      return .scalar (← Scalar.ofJson? (levels + 1) kind) (← Span.ofJson? (levels + 1) span)
    | some ("Dict", .arr [entries, span]) => do
      return .dict (← entries.list? (match levels with
          | 0 => fun _ => none
          | levels + 1 => Entry.ofJson? (Expr.ofJson? levels) levels))
        (← Span.ofJson? (levels + 1) span)
    | some ("Call", .arr [callee, args, span]) => do
      return .call (← Ident.ofJson? (levels + 1) callee) (← args.list? (Expr.ofJson? levels))
        (← Span.ofJson? (levels + 1) span)
    | some ("Name", content) => (Ident.ofJson? (levels + 2) content).map .name
    | _ => none
  | _, _ => none

def Assignment.ofJson? : Nat → Json → Option Assignment
  | levels + 1, value =>
    match value.parts? ["target", "annotation", "value", "span"] with
    | some [some target, form, some value, some span] => do
      return ⟨← Ident.ofJson? levels target,
        ← Json.optionalPart? (TyForm.ofJson? levels) form,
        ← Expr.ofJson? levels value, ← Span.ofJson? levels span⟩
    | _ => none
  | _, _ => none

def Stmt.ofJson? : Nat → Json → Option Stmt
  | levels + 2, value =>
    match value.variant? with
    | some ("Expr", content) => (Expr.ofJson? (levels + 1) content).map .expr
    | some ("Return", .arr [value, span]) => do
      return .ret (← value.option? (Expr.ofJson? levels)) (← Span.ofJson? levels span)
    | some ("Assign", content) => (Assignment.ofJson? (levels + 1) content).map .assign
    | _ => none
  | _, _ => none

def ParamDecl.ofJson? : Nat → Json → Option ParamDecl
  | levels + 1, value =>
    match value.parts? ["name", "ty", "span"] with
    | some [some name, some form, some span] => do
      return ⟨← Ident.ofJson? levels name, ← TyForm.ofJson? levels form,
        ← Span.ofJson? levels span⟩
    | _ => none
  | _, _ => none

def FunctionDecl.ofJson? : Nat → Json → Option FunctionDecl
  | levels + 2, value =>
    match value.parts? ["name", "params", "returns", "body", "span"] with
    | some [some name, some params, some returns, some body, some span] => do
      return ⟨← Ident.ofJson? (levels + 1) name, ← params.list? (ParamDecl.ofJson? levels),
        ← TyForm.ofJson? (levels + 1) returns, ← body.list? (Stmt.ofJson? levels),
        ← Span.ofJson? (levels + 1) span⟩
    | _ => none
  | _, _ => none

def FieldDecl.ofJson? : Nat → Json → Option FieldDecl
  | levels + 1, value =>
    match value.parts? ["name", "ty", "required", "span"] with
    | some [some name, some form, required, some span] => do
      return ⟨← Ident.ofJson? levels name, ← TyForm.ofJson? levels form,
        ← Json.optionalPart? Json.bool? required, ← Span.ofJson? levels span⟩
    | _ => none
  | _, _ => none

def RecordDecl.ofJson? : Nat → Json → Option RecordDecl
  | levels + 2, value =>
    match value.parts? ["name", "bases", "total", "fields", "span"] with
    | some [some name, bases, total, some fields, some span] => do
      return ⟨← Ident.ofJson? (levels + 1) name,
        ← Json.partOr [] (Json.list? (Ident.ofJson? levels)) bases,
        ← Json.partOr true Json.bool? total,
        ← fields.list? (FieldDecl.ofJson? levels), ← Span.ofJson? (levels + 1) span⟩
    | _ => none
  | _, _ => none

def Item.ofJson? : Nat → Json → Option Item
  | levels + 1, value =>
    match value.variant? with
    | some ("Function", content) => (FunctionDecl.ofJson? levels content).map .function
    | some ("Record", content) => (RecordDecl.ofJson? levels content).map .record
    | some ("Stmt", content) => (Stmt.ofJson? levels content).map .stmt
    | _ => none
  | _, _ => none

def Module.ofJson? : Nat → Json → Option Module
  | levels + 2, value =>
    match value.parts? ["items"] with
    | some [some items] => (items.list? (Item.ofJson? levels)).map Module.mk
    | _ => none
  | _, _ => none

def Module.read? (text : String) : Option Module :=
  (Json.read? text).bind (Module.ofJson? maxLevels)

end Conform
