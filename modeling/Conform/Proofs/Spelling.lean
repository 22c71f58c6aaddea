import Conform.Proofs.Annotation
import Conform.Proofs.Expr
import Conform.Proofs.Reader
import Conform.Proofs.Structure
import Conform.Tree.Decode

/-!
# How a tree may be spelled

Which JSON values stand for a tree, said without the reader. There is the form that is written, and
there are the liberties that a value may take with it, anywhere:

* those of a structure (`Json.Structure`): members in any order and among others, an array of all
  parts instead, and `bases` left out if there are none, `total` if it is true, `annotation` and
  `required` if they are absent;
* a scalar kind may be an object with the content `null`.

A value that takes none of them is the one that is written (`Module.writes`).
-/

namespace Conform

open Json (Part)

def Span.SpelledAs (s : Span) : Json → Prop :=
  Json.Elements [(· = .nat s.start.toNat), (· = .nat s.stop.toNat)]

def Ident.SpelledAs (i : Ident) : Json → Prop :=
  Json.Structure [.required "name" (· = .str i.name), .required "span" i.span.SpelledAs]

def Scalar.SpelledAs (k : Scalar) (value : Json) : Prop :=
  value = .str k.label ∨ value = .obj [(k.label, .null)]

mutual

def TyForm.SpelledAs : TyForm → Json → Prop
  | .named ident => Json.Variant "Named" ident.SpelledAs
  | .callable params returns span =>
    Json.Variant "Callable" (Json.Structure [
      .required "params" (Json.Elements (TyForm.spellings params)),
      .required "returns" returns.SpelledAs, .required "span" span.SpelledAs])

def TyForm.spellings : List TyForm → List (Json → Prop)
  | [] => []
  | form :: rest => form.SpelledAs :: TyForm.spellings rest

end

/-- An entry of a dict literal, given with what spells its value. -/
def Entry.SpelledAs (entry : Entry (Json → Prop)) : Json → Prop :=
  Json.Structure [.required "key" (· = .str entry.key), .required "value" entry.value,
    .required "span" entry.span.SpelledAs]

mutual

def Expr.SpelledAs : Expr → Json → Prop
  | .scalar kind span => Json.Variant "Scalar" (Json.Elements [kind.SpelledAs, span.SpelledAs])
  | .dict entries span =>
    Json.Variant "Dict"
      (Json.Elements [Json.Elements (Expr.entrySpellings entries), span.SpelledAs])
  | .call callee args span =>
    Json.Variant "Call"
      (Json.Elements [callee.SpelledAs, Json.Elements (Expr.spellings args), span.SpelledAs])
  | .name ident => Json.Variant "Name" ident.SpelledAs

def Expr.spellings : List Expr → List (Json → Prop)
  | [] => []
  | value :: rest => value.SpelledAs :: Expr.spellings rest

def Expr.entrySpellings : List (Entry Expr) → List (Json → Prop)
  | [] => []
  | ⟨key, value, span⟩ :: rest =>
    Entry.SpelledAs ⟨key, value.SpelledAs, span⟩ :: Expr.entrySpellings rest

end

def Assignment.SpelledAs (a : Assignment) : Json → Prop :=
  Json.Structure [.required "target" a.target.SpelledAs,
    ⟨"annotation", Json.Optional TyForm.SpelledAs a.form, a.form = none⟩,
    .required "value" a.value.SpelledAs, .required "span" a.span.SpelledAs]

def Stmt.SpelledAs : Stmt → Json → Prop
  | .expr value => Json.Variant "Expr" value.SpelledAs
  | .ret value span =>
    Json.Variant "Return" (Json.Elements [Json.Optional Expr.SpelledAs value, span.SpelledAs])
  | .assign assignment => Json.Variant "Assign" assignment.SpelledAs

def ParamDecl.SpelledAs (p : ParamDecl) : Json → Prop :=
  Json.Structure [.required "name" p.name.SpelledAs, .required "ty" p.form.SpelledAs,
    .required "span" p.span.SpelledAs]

def FunctionDecl.SpelledAs (f : FunctionDecl) : Json → Prop :=
  Json.Structure [.required "name" f.name.SpelledAs,
    .required "params" (Json.Elements (f.params.map ParamDecl.SpelledAs)),
    .required "returns" f.returns.SpelledAs,
    .required "body" (Json.Elements (f.body.map Stmt.SpelledAs)),
    .required "span" f.span.SpelledAs]

def FieldDecl.SpelledAs (f : FieldDecl) : Json → Prop :=
  Json.Structure [.required "name" f.name.SpelledAs, .required "ty" f.form.SpelledAs,
    ⟨"required", Json.Optional (fun mark => (· = .bool mark)) f.required, f.required = none⟩,
    .required "span" f.span.SpelledAs]

def RecordDecl.SpelledAs (r : RecordDecl) : Json → Prop :=
  Json.Structure [.required "name" r.name.SpelledAs,
    ⟨"bases", Json.Elements (r.bases.map Ident.SpelledAs), r.bases = []⟩,
    ⟨"total", (· = .bool r.total), r.total = true⟩,
    .required "fields" (Json.Elements (r.fields.map FieldDecl.SpelledAs)),
    .required "span" r.span.SpelledAs]

def Item.SpelledAs : Item → Json → Prop
  | .function decl => Json.Variant "Function" decl.SpelledAs
  | .record decl => Json.Variant "Record" decl.SpelledAs
  | .stmt s => Json.Variant "Stmt" s.SpelledAs

def Module.SpelledAs (m : Module) : Json → Prop :=
  Json.Structure [.required "items" (Json.Elements (m.items.map Item.SpelledAs))]

/-! ## Lists inside annotations and expressions -/

theorem TyForm.spellings_eq_map (forms : List TyForm) :
    TyForm.spellings forms = forms.map TyForm.SpelledAs := by
  induction forms with
  | nil => rfl
  | cons form rest ih => rw [TyForm.spellings, ih, List.map_cons]

theorem TyForm.toJsonAll_eq_map (forms : List TyForm) :
    TyForm.toJsonAll forms = forms.map TyForm.toJson := by
  induction forms with
  | nil => rfl
  | cons form rest ih => rw [TyForm.toJsonAll, ih, List.map_cons]

theorem Expr.spellings_eq_map (es : List Expr) :
    Expr.spellings es = es.map Expr.SpelledAs := by
  induction es with
  | nil => rfl
  | cons e rest ih => rw [Expr.spellings, ih, List.map_cons]

theorem Expr.toJsonAll_eq_map (es : List Expr) : Expr.toJsonAll es = es.map Expr.toJson := by
  induction es with
  | nil => rfl
  | cons e rest ih => rw [Expr.toJsonAll, ih, List.map_cons]

def Entry.toJson (entry : Entry Expr) : Json :=
  .obj [("key", .str entry.key), ("value", entry.value.toJson), ("span", entry.span.toJson)]

theorem Expr.entrySpellings_eq_map (entries : List (Entry Expr)) :
    Expr.entrySpellings entries = entries.map fun entry =>
      Entry.SpelledAs ⟨entry.key, entry.value.SpelledAs, entry.span⟩ := by
  induction entries with
  | nil => rfl
  | cons entry rest ih =>
    obtain ⟨key, value, span⟩ := entry
    rw [Expr.entrySpellings, ih, List.map_cons]

theorem Expr.toJsonEntries_eq_map (entries : List (Entry Expr)) :
    Expr.toJsonEntries entries = entries.map Entry.toJson := by
  induction entries with
  | nil => rfl
  | cons entry rest ih =>
    obtain ⟨key, value, span⟩ := entry
    rw [Expr.toJsonEntries, ih, List.map_cons, Entry.toJson]

/-! ## What is written

The form that is written spells the tree, and every number in it is natural, so its text is read
back as that form.
-/

/-- A value is what is written for something. -/
structure Json.Writes (Spelled : Json → Prop) (value : Json) : Prop where
  spelled : Spelled value
  isWhole : value.IsWhole

namespace Json.Writes

theorem text (s : String) : Writes (· = .str s) (.str s) := ⟨rfl, .str s⟩

theorem number (n : Nat) : Writes (· = .nat n) (.nat n) := ⟨rfl, .nat n⟩

theorem mark (b : Bool) : Writes (· = .bool b) (.bool b) := ⟨rfl, .bool b⟩

theorem elements {spellings : List (Json → Prop)} {elements : List Json}
    (h : List.Forall₂ Writes spellings elements) : Writes (Elements spellings) (.arr elements) where
  spelled := ⟨elements, rfl, h.imp fun _ _ => spelled⟩
  isWhole := .arr (by
    induction h with
    | nil => exact fun _ h => nomatch h
    | cons h _ ih => exact List.forall_mem_cons.mpr ⟨h.isWhole, ih⟩)

theorem list {α : Type} {SpelledAs : α → Json → Prop} {encode : α → Json} {as : List α}
    (h : ∀ a ∈ as, Writes (SpelledAs a) (encode a)) :
    Writes (Elements (as.map SpelledAs)) (.arr (as.map encode)) := by
  apply elements
  rw [List.forall₂_map_left_iff, List.forall₂_map_right_iff, List.forall₂_same]
  exact h

theorem variant {Spelled : Json → Prop} {content : Json} (name : String)
    (h : Writes Spelled content) : Writes (Variant name Spelled) (.obj [(name, content)]) where
  spelled := ⟨content, rfl, h.spelled⟩
  isWhole := .obj (by simpa using h.isWhole)

theorem optional {α : Type} {SpelledAs : α → Json → Prop} {encode : α → Json} {a? : Option α}
    (h : ∀ a, Writes (SpelledAs a) (encode a)) :
    Writes (Optional SpelledAs a?) (ofOption encode a?) := by
  cases a? with
  | none => exact ⟨rfl, .null⟩
  | some a => exact h a

/-- The members of a structure, all written and in order. -/
theorem members {parts : List Part} {members : List (String × Json)}
    (h : List.Forall₂ (fun part member => part.key = member.1 ∧ Writes part.Spelled member.2) parts
      members) : Writes (Structure parts) (.obj members) where
  spelled := by
    have hown : Members parts members := by
      induction h with
      | nil => exact .nil
      | @cons part member _ _ h _ ih =>
        obtain ⟨key, value⟩ := member
        obtain ⟨rfl, h⟩ := h
        exact .written h.spelled ih
    exact .object hown (List.forall_mem_nil _) (.of_eq (List.append_nil members).symm)
  isWhole := .obj (by
    induction h with
    | nil => exact fun _ h => nomatch h
    | cons h _ ih => exact List.forall_mem_cons.mpr ⟨h.2.isWhole, ih⟩)

end Json.Writes

open Json (Writes)

theorem Span.writes (s : Span) : Writes s.SpelledAs s.toJson :=
  .elements (.cons (.number s.start.toNat) (.cons (.number s.stop.toNat) .nil))

theorem Ident.writes (i : Ident) : Writes i.SpelledAs i.toJson :=
  .members (.cons ⟨rfl, .text i.name⟩ (.cons ⟨rfl, i.span.writes⟩ .nil))

theorem Scalar.writes (k : Scalar) : Writes k.SpelledAs (.str k.label) :=
  ⟨.inl rfl, .str k.label⟩

theorem TyForm.writes (form : TyForm) : Writes form.SpelledAs form.toJson := by
  induction form using TyForm.induct with
  | named ident =>
    rw [SpelledAs, toJson]
    exact .variant "Named" ident.writes
  | callable params returns span ihparams ihreturns =>
    rw [SpelledAs, toJson, spellings_eq_map, toJsonAll_eq_map]
    exact .variant "Callable" (.members (.cons ⟨rfl, .list ihparams⟩
      (.cons ⟨rfl, ihreturns⟩ (.cons ⟨rfl, span.writes⟩ .nil))))

theorem Expr.writes (e : Expr) : Writes e.SpelledAs e.toJson := by
  induction e using Expr.induct with
  | scalar kind span =>
    rw [SpelledAs, toJson]
    exact .variant "Scalar" (.elements (.cons kind.writes (.cons span.writes .nil)))
  | dict entries span ih =>
    rw [SpelledAs, toJson, entrySpellings_eq_map, toJsonEntries_eq_map]
    refine .variant "Dict" (.elements
      (.cons (.list fun entry hentry => ?_) (.cons span.writes .nil)))
    exact .members (.cons ⟨rfl, .text entry.key⟩ (.cons ⟨rfl, ih entry hentry⟩
      (.cons ⟨rfl, entry.span.writes⟩ .nil)))
  | call callee args span ih =>
    rw [SpelledAs, toJson, spellings_eq_map, toJsonAll_eq_map]
    exact .variant "Call" (.elements
      (.cons callee.writes (.cons (.list ih) (.cons span.writes .nil))))
  | name ident =>
    rw [SpelledAs, toJson]
    exact .variant "Name" ident.writes

theorem Assignment.writes (a : Assignment) : Writes a.SpelledAs a.toJson :=
  .members (.cons ⟨rfl, a.target.writes⟩ (.cons ⟨rfl, .optional TyForm.writes⟩
    (.cons ⟨rfl, a.value.writes⟩ (.cons ⟨rfl, a.span.writes⟩ .nil))))

theorem Stmt.writes (s : Stmt) : Writes s.SpelledAs s.toJson := by
  cases s with
  | expr value => exact .variant "Expr" value.writes
  | ret value span =>
    exact .variant "Return" (.elements (.cons (.optional Expr.writes) (.cons span.writes .nil)))
  | assign assignment => exact .variant "Assign" assignment.writes

theorem ParamDecl.writes (p : ParamDecl) : Writes p.SpelledAs p.toJson :=
  .members (.cons ⟨rfl, p.name.writes⟩ (.cons ⟨rfl, p.form.writes⟩
    (.cons ⟨rfl, p.span.writes⟩ .nil)))

theorem FunctionDecl.writes (f : FunctionDecl) : Writes f.SpelledAs f.toJson :=
  .members (.cons ⟨rfl, f.name.writes⟩ (.cons ⟨rfl, .list fun p _ => p.writes⟩
    (.cons ⟨rfl, f.returns.writes⟩ (.cons ⟨rfl, .list fun s _ => s.writes⟩
    (.cons ⟨rfl, f.span.writes⟩ .nil)))))

theorem FieldDecl.writes (f : FieldDecl) : Writes f.SpelledAs f.toJson :=
  .members (.cons ⟨rfl, f.name.writes⟩ (.cons ⟨rfl, f.form.writes⟩
    (.cons ⟨rfl, .optional .mark⟩ (.cons ⟨rfl, f.span.writes⟩ .nil))))

theorem RecordDecl.writes (r : RecordDecl) : Writes r.SpelledAs r.toJson :=
  .members (.cons ⟨rfl, r.name.writes⟩ (.cons ⟨rfl, .list fun i _ => i.writes⟩
    (.cons ⟨rfl, .mark r.total⟩ (.cons ⟨rfl, .list fun f _ => f.writes⟩
    (.cons ⟨rfl, r.span.writes⟩ .nil)))))

theorem Item.writes (item : Item) : Writes item.SpelledAs item.toJson := by
  cases item with
  | function decl => exact .variant "Function" decl.writes
  | record decl => exact .variant "Record" decl.writes
  | stmt s => exact .variant "Stmt" s.writes

theorem Module.writes (m : Module) : Writes m.SpelledAs m.toJson :=
  .members (.cons ⟨rfl, .list fun item _ => item.writes⟩ .nil)

end Conform
