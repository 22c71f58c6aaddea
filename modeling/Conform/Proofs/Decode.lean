import Conform.Proofs.Record
import Conform.Proofs.Structure
import Conform.Tree.Decode

/-!
# What a reader finds

Each reader of `Conform/Tree/Decode.lean` by the shape of what it reads, one equivalence for a type:
a value is read as a tree exactly if it is a structure, variant or array whose parts are read as the
parts of the tree (`…ofJson?_eq_some_iff`). They are stated in the terms of `Proofs/Structure.lean`
and look like the rules of spelling, with the readers of the parts where these have the spellings of
the parts. So nothing after them opens a reader.

The levels that a reader is given are those it hands on, less what its own array or object takes.
-/

namespace Conform

variable {levels : Nat} {value : Json}

namespace Json

/-! ## Lists, and parts that may be left out -/

theorem list?_eq_some_iff {α : Type} {decode : Json → Option α} {as : List α} :
    value.list? decode = some as ↔
      Elements (as.map fun a element => decode element = some a) value := by
  cases value with
  | arr values =>
    simp only [list?, elements?, Option.bind_some, mapM_eq_some_iff, Elements, arr.injEq,
      exists_eq_left', List.forall₂_map_left_iff]
    exact ⟨.flip, .flip⟩
  | _ => simp [list?, elements?, Elements]

theorem takes_optionalPart_iff {α : Type} {decode : Json → Option α} {key : String} {a? : Option α}
    {part : Option Json} :
    Part.Takes ⟨key, fun value => value.option? decode = some a?, a? = none⟩ part ↔
      optionalPart? decode part = some a? := by
  cases part with
  | none => simp [Part.Takes, optionalPart?, eq_comm]
  | some value => exact Iff.rfl

theorem takes_partOr_iff {α : Type} {decode : Json → Option α} {key : String} {default a : α}
    {part : Option Json} :
    Part.Takes ⟨key, fun value => decode value = some a, a = default⟩ part ↔
      partOr default decode part = some a := by
  cases part with
  | none => simp [Part.Takes, partOr, eq_comm]
  | some value => exact Iff.rfl

end Json

/-! ## Spans and kinds -/

theorem bound?_eq_some_iff {bound : UInt64} :
    value.bound? = some bound ↔ value = .nat bound.toNat := by
  cases value with
  | nat number =>
    simp only [Json.bound?, Option.ite_none_right_eq_some, Option.some.injEq, Json.nat.injEq]
    constructor
    · rintro ⟨hlt, rfl⟩
      exact (UInt64.toNat_ofNat_of_lt hlt).symm
    · rintro rfl
      exact ⟨bound.toNat_lt, UInt64.ofNat_toNat⟩
  | _ => simp [Json.bound?]

theorem Span.ofJson?_eq_some_iff {s : Span} :
    Span.ofJson? (levels + 1) value = some s ↔
      Json.Elements [fun part => part.bound? = some s.start, fun part => part.bound? = some s.stop]
        value := by
  constructor
  · intro h
    unfold ofJson? at h
    split at h
    · simp only [Option.bind_eq_bind, Option.bind_eq_some_iff] at h
      obtain ⟨_, hstart, _, hstop, h⟩ := h
      cases h
      exact ⟨_, rfl, .cons hstart (.cons hstop .nil)⟩
    · exact nomatch h
  · rintro ⟨_, rfl, _ | ⟨hstart, _ | ⟨hstop, _ | _⟩⟩⟩
    simp [ofJson?, hstart, hstop]

theorem Scalar.ofLabel?_eq_some_iff {label : String} {k : Scalar} :
    Scalar.ofLabel? label = some k ↔ label = k.label := by
  have hlabels : (all.map Scalar.label).Nodup := by decide
  have hfind : (all.find? fun kind => kind.label = label) = some k ↔ k ∈ all ∧ k.label = label :=
    find?_key_eq_some_iff hlabels
  exact hfind.trans ⟨fun h => h.2.symm, fun h => ⟨k.mem_all, h.symm⟩⟩

/-! ## Structures -/

theorem Ident.ofJson?_eq_some_iff {i : Ident} :
    Ident.ofJson? (levels + 1) value = some i ↔
      Json.Structure [
        .required "name" (fun part => part.text? = some i.name),
        .required "span" (fun part => Span.ofJson? levels part = some i.span)] value := by
  rw [Json.structure_iff (by simp), ofJson?]
  constructor
  · intro h
    split at h
    · next hparts =>
      simp only [Option.bind_eq_bind, Option.bind_eq_some_iff] at h
      obtain ⟨_, hname, _, hspan, h⟩ := h
      cases h
      exact ⟨_, hparts, .cons hname (.cons hspan .nil)⟩
    · exact nomatch h
  · rintro ⟨_, hparts, _ | ⟨hname, _ | ⟨hspan, _ | _⟩⟩⟩
    obtain ⟨_, rfl, hname'⟩ := Json.Part.takes_required_iff.mp hname
    obtain ⟨_, rfl, hspan'⟩ := Json.Part.takes_required_iff.mp hspan
    simp only [List.map_cons, Json.Part.key_required, List.map_nil] at hparts
    simp [hparts, hname', hspan']

theorem Assignment.ofJson?_eq_some_iff {a : Assignment} :
    Assignment.ofJson? (levels + 1) value = some a ↔
      Json.Structure [
        .required "target" (fun part => Ident.ofJson? levels part = some a.target),
        ⟨"annotation", fun part => part.option? (TyForm.ofJson? levels) = some a.form,
          a.form = none⟩,
        .required "value" (fun part => Expr.ofJson? levels part = some a.value),
        .required "span" (fun part => Span.ofJson? levels part = some a.span)] value := by
  rw [Json.structure_iff (by simp), ofJson?]
  constructor
  · intro h
    split at h
    · next hparts =>
      simp only [Option.bind_eq_bind, Option.bind_eq_some_iff] at h
      obtain ⟨_, htarget, _, hform, _, hvalue, _, hspan, h⟩ := h
      cases h
      exact ⟨_, hparts, .cons htarget (.cons (Json.takes_optionalPart_iff.mpr hform)
        (.cons hvalue (.cons hspan .nil)))⟩
    · exact nomatch h
  · rintro ⟨_, hparts, _ | ⟨htarget, _ | ⟨hform, _ | ⟨hvalue, _ | ⟨hspan, _ | _⟩⟩⟩⟩⟩
    obtain ⟨_, rfl, htarget'⟩ := Json.Part.takes_required_iff.mp htarget
    obtain ⟨_, rfl, hvalue'⟩ := Json.Part.takes_required_iff.mp hvalue
    obtain ⟨_, rfl, hspan'⟩ := Json.Part.takes_required_iff.mp hspan
    simp only [List.map_cons, Json.Part.key_required, List.map_nil] at hparts
    simp [hparts, htarget', Json.takes_optionalPart_iff.mp hform, hvalue', hspan']

theorem ParamDecl.ofJson?_eq_some_iff {p : ParamDecl} :
    ParamDecl.ofJson? (levels + 1) value = some p ↔
      Json.Structure [
        .required "name" (fun part => Ident.ofJson? levels part = some p.name),
        .required "ty" (fun part => TyForm.ofJson? levels part = some p.form),
        .required "span" (fun part => Span.ofJson? levels part = some p.span)] value := by
  rw [Json.structure_iff (by simp), ofJson?]
  constructor
  · intro h
    split at h
    · next hparts =>
      simp only [Option.bind_eq_bind, Option.bind_eq_some_iff] at h
      obtain ⟨_, hname, _, hty, _, hspan, h⟩ := h
      cases h
      exact ⟨_, hparts, .cons hname (.cons hty (.cons hspan .nil))⟩
    · exact nomatch h
  · rintro ⟨_, hparts, _ | ⟨hname, _ | ⟨hty, _ | ⟨hspan, _ | _⟩⟩⟩⟩
    obtain ⟨_, rfl, hname'⟩ := Json.Part.takes_required_iff.mp hname
    obtain ⟨_, rfl, hty'⟩ := Json.Part.takes_required_iff.mp hty
    obtain ⟨_, rfl, hspan'⟩ := Json.Part.takes_required_iff.mp hspan
    simp only [List.map_cons, Json.Part.key_required, List.map_nil] at hparts
    simp [hparts, hname', hty', hspan']

theorem FunctionDecl.ofJson?_eq_some_iff {f : FunctionDecl} :
    FunctionDecl.ofJson? (levels + 2) value = some f ↔
      Json.Structure [
        .required "name" (fun part => Ident.ofJson? (levels + 1) part = some f.name),
        .required "params" (fun part => part.list? (ParamDecl.ofJson? levels) = some f.params),
        .required "returns" (fun part => TyForm.ofJson? (levels + 1) part = some f.returns),
        .required "body" (fun part => part.list? (Stmt.ofJson? levels) = some f.body),
        .required "span" (fun part => Span.ofJson? (levels + 1) part = some f.span)] value := by
  rw [Json.structure_iff (by simp), ofJson?]
  constructor
  · intro h
    split at h
    · next hparts =>
      simp only [Option.bind_eq_bind, Option.bind_eq_some_iff] at h
      obtain ⟨_, hname, _, hparams, _, hreturns, _, hbody, _, hspan, h⟩ := h
      cases h
      exact ⟨_, hparts, .cons hname (.cons hparams (.cons hreturns
        (.cons hbody (.cons hspan .nil))))⟩
    · exact nomatch h
  · rintro ⟨_, hparts, _ | ⟨hname, _ | ⟨hparams, _ | ⟨hreturns, _ | ⟨hbody, _ | ⟨hspan, _ | _⟩⟩⟩⟩⟩⟩
    obtain ⟨_, rfl, hname'⟩ := Json.Part.takes_required_iff.mp hname
    obtain ⟨_, rfl, hparams'⟩ := Json.Part.takes_required_iff.mp hparams
    obtain ⟨_, rfl, hreturns'⟩ := Json.Part.takes_required_iff.mp hreturns
    obtain ⟨_, rfl, hbody'⟩ := Json.Part.takes_required_iff.mp hbody
    obtain ⟨_, rfl, hspan'⟩ := Json.Part.takes_required_iff.mp hspan
    simp only [List.map_cons, Json.Part.key_required, List.map_nil] at hparts
    simp [hparts, hname', hparams', hreturns', hbody', hspan']

theorem FieldDecl.ofJson?_eq_some_iff {f : FieldDecl} :
    FieldDecl.ofJson? (levels + 1) value = some f ↔
      Json.Structure [
        .required "name" (fun part => Ident.ofJson? levels part = some f.name),
        .required "ty" (fun part => TyForm.ofJson? levels part = some f.form),
        ⟨"required", fun part => part.option? Json.bool? = some f.required, f.required = none⟩,
        .required "span" (fun part => Span.ofJson? levels part = some f.span)] value := by
  rw [Json.structure_iff (by simp), ofJson?]
  constructor
  · intro h
    split at h
    · next hparts =>
      simp only [Option.bind_eq_bind, Option.bind_eq_some_iff] at h
      obtain ⟨_, hname, _, hty, _, hrequired, _, hspan, h⟩ := h
      cases h
      exact ⟨_, hparts, .cons hname (.cons hty (.cons (Json.takes_optionalPart_iff.mpr hrequired)
        (.cons hspan .nil)))⟩
    · exact nomatch h
  · rintro ⟨_, hparts, _ | ⟨hname, _ | ⟨hty, _ | ⟨hrequired, _ | ⟨hspan, _ | _⟩⟩⟩⟩⟩
    obtain ⟨_, rfl, hname'⟩ := Json.Part.takes_required_iff.mp hname
    obtain ⟨_, rfl, hty'⟩ := Json.Part.takes_required_iff.mp hty
    obtain ⟨_, rfl, hspan'⟩ := Json.Part.takes_required_iff.mp hspan
    simp only [List.map_cons, Json.Part.key_required, List.map_nil] at hparts
    simp [hparts, hname', hty', Json.takes_optionalPart_iff.mp hrequired, hspan']

theorem RecordDecl.ofJson?_eq_some_iff {r : RecordDecl} :
    RecordDecl.ofJson? (levels + 2) value = some r ↔
      Json.Structure [
        .required "name" (fun part => Ident.ofJson? (levels + 1) part = some r.name),
        ⟨"bases", fun part => part.list? (Ident.ofJson? levels) = some r.bases, r.bases = []⟩,
        ⟨"total", fun part => part.bool? = some r.total, r.total = true⟩,
        .required "fields" (fun part => part.list? (FieldDecl.ofJson? levels) = some r.fields),
        .required "span" (fun part => Span.ofJson? (levels + 1) part = some r.span)] value := by
  rw [Json.structure_iff (by simp), ofJson?]
  constructor
  · intro h
    split at h
    · next hparts =>
      simp only [Option.bind_eq_bind, Option.bind_eq_some_iff] at h
      obtain ⟨_, hname, _, hbases, _, htotal, _, hfields, _, hspan, h⟩ := h
      cases h
      exact ⟨_, hparts, .cons hname (.cons (Json.takes_partOr_iff.mpr hbases)
        (.cons (Json.takes_partOr_iff.mpr htotal) (.cons hfields (.cons hspan .nil))))⟩
    · exact nomatch h
  · rintro ⟨_, hparts, _ | ⟨hname, _ | ⟨hbases, _ | ⟨htotal, _ | ⟨hfields, _ | ⟨hspan, _ | _⟩⟩⟩⟩⟩⟩
    obtain ⟨_, rfl, hname'⟩ := Json.Part.takes_required_iff.mp hname
    obtain ⟨_, rfl, hfields'⟩ := Json.Part.takes_required_iff.mp hfields
    obtain ⟨_, rfl, hspan'⟩ := Json.Part.takes_required_iff.mp hspan
    simp only [List.map_cons, Json.Part.key_required, List.map_nil] at hparts
    simp [hparts, hname', Json.takes_partOr_iff.mp hbases, Json.takes_partOr_iff.mp htotal,
      hfields', hspan']

theorem Entry.ofJson?_eq_some_iff {decode : Json → Option Expr} {entry : Entry Expr} :
    Entry.ofJson? decode levels value = some entry ↔
      Json.Structure [.required "key" (fun part => part.text? = some entry.key),
        .required "value" (fun part => decode part = some entry.value),
        .required "span" (fun part => Span.ofJson? levels part = some entry.span)] value := by
  rw [Json.structure_iff (by simp), ofJson?]
  constructor
  · intro h
    split at h
    · next hparts =>
      simp only [Option.bind_eq_bind, Option.bind_eq_some_iff] at h
      obtain ⟨_, hkey, _, hvalue, _, hspan, h⟩ := h
      cases h
      exact ⟨_, hparts, .cons hkey (.cons hvalue (.cons hspan .nil))⟩
    · exact nomatch h
  · rintro ⟨_, hparts, _ | ⟨hkey, _ | ⟨hvalue, _ | ⟨hspan, _ | _⟩⟩⟩⟩
    obtain ⟨_, rfl, hkey'⟩ := Json.Part.takes_required_iff.mp hkey
    obtain ⟨_, rfl, hvalue'⟩ := Json.Part.takes_required_iff.mp hvalue
    obtain ⟨_, rfl, hspan'⟩ := Json.Part.takes_required_iff.mp hspan
    simp only [List.map_cons, Json.Part.key_required, List.map_nil] at hparts
    simp [hparts, hkey', hvalue', hspan']

theorem Module.ofJson?_eq_some_iff {m : Module} :
    Module.ofJson? (levels + 2) value = some m ↔
      Json.Structure [.required "items" (fun part =>
        part.list? (Item.ofJson? levels) = some m.items)] value := by
  rw [Json.structure_iff (by simp), ofJson?]
  constructor
  · intro h
    split at h
    · next hparts =>
      obtain ⟨_, hitems, rfl⟩ := Option.map_eq_some_iff.mp h
      exact ⟨_, hparts, .cons hitems .nil⟩
    · exact nomatch h
  · rintro ⟨_, hparts, _ | ⟨hitems, _ | _⟩⟩
    obtain ⟨_, rfl, hitems'⟩ := Json.Part.takes_required_iff.mp hitems
    simp only [List.map_cons, Json.Part.key_required, List.map_nil] at hparts
    simp [hparts, hitems']

/-! ## Variants -/

theorem variant?_eq_some_iff {name : String} {content : Json} :
    value.variant? = some (name, content) ↔ value = .obj [(name, content)] := by
  constructor
  · intro h
    unfold Json.variant? at h
    split at h <;> simp_all
  · rintro rfl
    rfl

theorem TyForm.ofJson?_eq_some_iff {form : TyForm} :
    TyForm.ofJson? (levels + 3) value = some form ↔
      match form with
      | .named ident =>
        Json.Variant "Named" (fun content => Ident.ofJson? (levels + 2) content = some ident) value
      | .callable params returns span =>
        Json.Variant "Callable" (Json.Structure [
          .required "params" (fun part => part.list? (TyForm.ofJson? levels) = some params),
          .required "returns" (fun part => TyForm.ofJson? (levels + 1) part = some returns),
          .required "span" (fun part => Span.ofJson? (levels + 1) part = some span)]) value := by
  rw [ofJson?]
  constructor
  · intro h
    split at h
    · next content hvariant =>
      obtain ⟨_, hident, rfl⟩ := Option.map_eq_some_iff.mp h
      exact ⟨content, variant?_eq_some_iff.mp hvariant, hident⟩
    · next content hvariant =>
      split at h
      · next hparts =>
        simp only [Option.bind_eq_bind, Option.bind_eq_some_iff] at h
        obtain ⟨_, hparams, _, hreturns, _, hspan, h⟩ := h
        cases h
        exact ⟨content, variant?_eq_some_iff.mp hvariant, (Json.structure_iff (by simp)).mpr
          ⟨_, hparts, .cons hparams (.cons hreturns (.cons hspan .nil))⟩⟩
      · exact nomatch h
    · exact nomatch h
  · intro h
    cases form with
    | named ident =>
      obtain ⟨content, rfl, h⟩ := h
      simp [Json.variant?, h]
    | callable params returns span =>
      obtain ⟨content, rfl, h⟩ := h
      obtain ⟨_, hparts, _ | ⟨hparams, _ | ⟨hreturns, _ | ⟨hspan, _ | _⟩⟩⟩⟩ :=
        (Json.structure_iff (by simp)).mp h
      obtain ⟨_, rfl, hparams'⟩ := Json.Part.takes_required_iff.mp hparams
      obtain ⟨_, rfl, hreturns'⟩ := Json.Part.takes_required_iff.mp hreturns
      obtain ⟨_, rfl, hspan'⟩ := Json.Part.takes_required_iff.mp hspan
      simp only [List.map_cons, Json.Part.key_required, List.map_nil] at hparts
      simp [Json.variant?, hparts, hparams', hreturns', hspan']

/-- Reads an entry of a dict literal in an expression. -/
def Expr.entryWithin? : Nat → Json → Option (Entry Expr)
  | 0, _ => none
  | levels + 1, value => Entry.ofJson? (Expr.ofJson? levels) levels value

theorem Expr.ofJson?_add_three :
    Expr.ofJson? (levels + 3) value =
      match value.variant? with
      | some ("Scalar", .arr [kind, span]) => do
        return .scalar (← Scalar.ofJson? (levels + 1) kind) (← Span.ofJson? (levels + 1) span)
      | some ("Dict", .arr [entries, span]) => do
        return .dict (← entries.list? (Expr.entryWithin? levels)) (← Span.ofJson? (levels + 1) span)
      | some ("Call", .arr [callee, args, span]) => do
        return .call (← Ident.ofJson? (levels + 1) callee) (← args.list? (Expr.ofJson? levels))
          (← Span.ofJson? (levels + 1) span)
      | some ("Name", content) => (Ident.ofJson? (levels + 2) content).map .name
      | _ => none := by
  cases levels with
  | zero => rw [ofJson?]; rfl
  | succ levels => rw [ofJson?]; rfl

theorem Expr.ofJson?_eq_some_iff {e : Expr} :
    Expr.ofJson? (levels + 3) value = some e ↔
      match e with
      | .scalar kind span =>
        Json.Variant "Scalar" (Json.Elements [
          fun part => Scalar.ofJson? (levels + 1) part = some kind,
          fun part => Span.ofJson? (levels + 1) part = some span]) value
      | .dict entries span =>
        Json.Variant "Dict" (Json.Elements [
          fun part => part.list? (Expr.entryWithin? levels) = some entries,
          fun part => Span.ofJson? (levels + 1) part = some span]) value
      | .call callee args span =>
        Json.Variant "Call" (Json.Elements [
          fun part => Ident.ofJson? (levels + 1) part = some callee,
          fun part => part.list? (Expr.ofJson? levels) = some args,
          fun part => Span.ofJson? (levels + 1) part = some span]) value
      | .name ident =>
        Json.Variant "Name" (fun content => Ident.ofJson? (levels + 2) content = some ident)
          value := by
  rw [ofJson?_add_three]
  constructor
  · intro h
    split at h
    · next hvariant =>
      simp only [Option.bind_eq_bind, Option.bind_eq_some_iff] at h
      obtain ⟨_, hkind, _, hspan, h⟩ := h
      cases h
      exact ⟨_, variant?_eq_some_iff.mp hvariant, _, rfl, .cons hkind (.cons hspan .nil)⟩
    · next hvariant =>
      simp only [Option.bind_eq_bind, Option.bind_eq_some_iff] at h
      obtain ⟨_, hentries, _, hspan, h⟩ := h
      cases h
      exact ⟨_, variant?_eq_some_iff.mp hvariant, _, rfl, .cons hentries (.cons hspan .nil)⟩
    · next hvariant =>
      simp only [Option.bind_eq_bind, Option.bind_eq_some_iff] at h
      obtain ⟨_, hcallee, _, hargs, _, hspan, h⟩ := h
      cases h
      exact ⟨_, variant?_eq_some_iff.mp hvariant, _, rfl,
        .cons hcallee (.cons hargs (.cons hspan .nil))⟩
    · next hvariant =>
      obtain ⟨_, hident, rfl⟩ := Option.map_eq_some_iff.mp h
      exact ⟨_, variant?_eq_some_iff.mp hvariant, hident⟩
    · exact nomatch h
  · intro h
    cases e with
    | scalar kind span =>
      obtain ⟨_, rfl, _, rfl, _ | ⟨hkind, _ | ⟨hspan, _ | _⟩⟩⟩ := h
      simp [Json.variant?, hkind, hspan]
    | dict entries span =>
      obtain ⟨_, rfl, _, rfl, _ | ⟨hentries, _ | ⟨hspan, _ | _⟩⟩⟩ := h
      simp [Json.variant?, hentries, hspan]
    | call callee args span =>
      obtain ⟨_, rfl, _, rfl, _ | ⟨hcallee, _ | ⟨hargs, _ | ⟨hspan, _ | _⟩⟩⟩⟩ := h
      simp [Json.variant?, hcallee, hargs, hspan]
    | name ident =>
      obtain ⟨_, rfl, h⟩ := h
      simp [Json.variant?, h]

theorem Stmt.ofJson?_eq_some_iff {s : Stmt} :
    Stmt.ofJson? (levels + 2) value = some s ↔
      match s with
      | .expr e =>
        Json.Variant "Expr" (fun content => Expr.ofJson? (levels + 1) content = some e) value
      | .ret e? span =>
        Json.Variant "Return" (Json.Elements [
          fun part => part.option? (Expr.ofJson? levels) = some e?,
          fun part => Span.ofJson? levels part = some span]) value
      | .assign a =>
        Json.Variant "Assign" (fun content => Assignment.ofJson? (levels + 1) content = some a)
          value := by
  rw [ofJson?]
  constructor
  · intro h
    split at h
    · next hvariant =>
      obtain ⟨_, hvalue, rfl⟩ := Option.map_eq_some_iff.mp h
      exact ⟨_, variant?_eq_some_iff.mp hvariant, hvalue⟩
    · next hvariant =>
      simp only [Option.bind_eq_bind, Option.bind_eq_some_iff] at h
      obtain ⟨_, hvalue, _, hspan, h⟩ := h
      cases h
      exact ⟨_, variant?_eq_some_iff.mp hvariant, _, rfl, .cons hvalue (.cons hspan .nil)⟩
    · next hvariant =>
      obtain ⟨_, hassign, rfl⟩ := Option.map_eq_some_iff.mp h
      exact ⟨_, variant?_eq_some_iff.mp hvariant, hassign⟩
    · exact nomatch h
  · intro h
    cases s with
    | expr e =>
      obtain ⟨_, rfl, h⟩ := h
      simp [Json.variant?, h]
    | ret e? span =>
      obtain ⟨_, rfl, _, rfl, _ | ⟨hvalue, _ | ⟨hspan, _ | _⟩⟩⟩ := h
      simp [Json.variant?, hvalue, hspan]
    | assign a =>
      obtain ⟨_, rfl, h⟩ := h
      simp [Json.variant?, h]

theorem Item.ofJson?_eq_some_iff {item : Item} :
    Item.ofJson? (levels + 1) value = some item ↔
      match item with
      | .function decl =>
        Json.Variant "Function" (fun content => FunctionDecl.ofJson? levels content = some decl)
          value
      | .record decl =>
        Json.Variant "Record" (fun content => RecordDecl.ofJson? levels content = some decl) value
      | .stmt s =>
        Json.Variant "Stmt" (fun content => Stmt.ofJson? levels content = some s) value := by
  rw [ofJson?]
  constructor
  · intro h
    split at h
    · next hvariant =>
      obtain ⟨_, hdecl, rfl⟩ := Option.map_eq_some_iff.mp h
      exact ⟨_, variant?_eq_some_iff.mp hvariant, hdecl⟩
    · next hvariant =>
      obtain ⟨_, hdecl, rfl⟩ := Option.map_eq_some_iff.mp h
      exact ⟨_, variant?_eq_some_iff.mp hvariant, hdecl⟩
    · next hvariant =>
      obtain ⟨_, hstmt, rfl⟩ := Option.map_eq_some_iff.mp h
      exact ⟨_, variant?_eq_some_iff.mp hvariant, hstmt⟩
    · exact nomatch h
  · intro h
    cases item with
    | function decl | record decl | stmt s =>
      obtain ⟨_, rfl, h⟩ := h
      simp [Json.variant?, h]

end Conform
