import Conform.Json.Printer
import Conform.Tree.Basic

/-!
# Writing a tree

The JSON form of a tree. A structure is an object with all its parts in a fixed order, absent ones
written `null`; a case is an object whose only key names it; a case with several unnamed parts has
an array of them. The text of a tree is the compact text of that form.
-/

namespace Conform

def Span.toJson (s : Span) : Json :=
  .arr [.nat s.start.toNat, .nat s.stop.toNat]

/-- The word for a scalar kind in a tree, which is in lower case for every kind. -/
def Scalar.label : Scalar → String
  | .none => "none"
  | kind => kind.keyword

def Ident.toJson (i : Ident) : Json :=
  .obj [("name", .str i.name), ("span", i.span.toJson)]

/-- The form of a part that may be absent. -/
def Json.ofOption {α : Type} (encode : α → Json) : Option α → Json
  | some value => encode value
  | none => .null

mutual

def TyForm.toJson : TyForm → Json
  | .named ident => .obj [("Named", ident.toJson)]
  | .callable params returns span =>
    .obj [("Callable", .obj [("params", .arr (TyForm.toJsonAll params)),
      ("returns", returns.toJson), ("span", span.toJson)])]

def TyForm.toJsonAll : List TyForm → List Json
  | [] => []
  | form :: rest => form.toJson :: TyForm.toJsonAll rest

end

mutual

def Expr.toJson : Expr → Json
  | .scalar kind span => .obj [("Scalar", .arr [.str kind.label, span.toJson])]
  | .dict entries span => .obj [("Dict", .arr [.arr (Expr.toJsonEntries entries), span.toJson])]
  | .call callee args span =>
    .obj [("Call", .arr [callee.toJson, .arr (Expr.toJsonAll args), span.toJson])]
  | .name ident => .obj [("Name", ident.toJson)]

def Expr.toJsonAll : List Expr → List Json
  | [] => []
  | value :: rest => value.toJson :: Expr.toJsonAll rest

def Expr.toJsonEntries : List (Entry Expr) → List Json
  | [] => []
  | ⟨key, value, span⟩ :: rest =>
    .obj [("key", .str key), ("value", value.toJson), ("span", span.toJson)]
      :: Expr.toJsonEntries rest

end

def Assignment.toJson (a : Assignment) : Json :=
  .obj [("target", a.target.toJson), ("annotation", .ofOption TyForm.toJson a.form),
    ("value", a.value.toJson), ("span", a.span.toJson)]

def Stmt.toJson : Stmt → Json
  | .expr value => .obj [("Expr", value.toJson)]
  | .ret value span => .obj [("Return", .arr [.ofOption Expr.toJson value, span.toJson])]
  | .assign assignment => .obj [("Assign", assignment.toJson)]

def ParamDecl.toJson (p : ParamDecl) : Json :=
  .obj [("name", p.name.toJson), ("ty", p.form.toJson), ("span", p.span.toJson)]

def FunctionDecl.toJson (f : FunctionDecl) : Json :=
  .obj [("name", f.name.toJson), ("params", .arr (f.params.map ParamDecl.toJson)),
    ("returns", f.returns.toJson), ("body", .arr (f.body.map Stmt.toJson)),
    ("span", f.span.toJson)]

def FieldDecl.toJson (f : FieldDecl) : Json :=
  .obj [("name", f.name.toJson), ("ty", f.form.toJson),
    ("required", .ofOption Json.bool f.required), ("span", f.span.toJson)]

def RecordDecl.toJson (r : RecordDecl) : Json :=
  .obj [("name", r.name.toJson), ("bases", .arr (r.bases.map Ident.toJson)),
    ("total", .bool r.total), ("fields", .arr (r.fields.map FieldDecl.toJson)),
    ("span", r.span.toJson)]

def Item.toJson : Item → Json
  | .function decl => .obj [("Function", decl.toJson)]
  | .record decl => .obj [("Record", decl.toJson)]
  | .stmt s => .obj [("Stmt", s.toJson)]

def Module.toJson (m : Module) : Json :=
  .obj [("items", .arr (m.items.map Item.toJson))]

def Module.render (m : Module) : String :=
  m.toJson.compact

end Conform
