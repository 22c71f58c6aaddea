import Conform.Proofs.Decode
import Conform.Proofs.Exact
import Conform.Proofs.Spelling

/-!
# The reader and the spellings

Every reader of trees is exact (`Module.exact` and what leads up to it): it reads the spellings of
`Proofs/Spelling.lean` and nothing else. For each type the shape of what is read and the shape of
what is spelled agree place by place, and the places are exact one level further down. Annotations
and expressions hold others of their kind, so theirs is an induction on the levels.

A reader that has fewer levels than any spelling of its type reads nothing, which the last equations
of its definition say without looking at the value; that nothing is lost there is `deeperThan`.
-/

namespace Conform

open Json (Exact DeeperThan)

/-! ## Too few levels -/

theorem Span.deeperThan (s : Span) : DeeperThan 0 s.SpelledAs :=
  Json.deeperThan_zero_elements

theorem Ident.deeperThan (i : Ident) : DeeperThan 1 i.SpelledAs :=
  Json.deeperThan_structure "span" (by simp) (by simp) i.span.deeperThan

theorem TyForm.deeperThan (form : TyForm) : DeeperThan 2 form.SpelledAs := by
  cases form with
  | named ident =>
    rw [SpelledAs]
    exact Json.deeperThan_variant ident.deeperThan
  | callable params returns span =>
    rw [SpelledAs]
    refine Json.deeperThan_variant (Json.deeperThan_structure "span" ?_ ?_ span.deeperThan)
    · simp
    · simp

theorem Expr.deeperThan (e : Expr) : DeeperThan 2 e.SpelledAs := by
  have htuple : ∀ (span : Span) {spellings : List (Json → Prop)}, span.SpelledAs ∈ spellings →
      DeeperThan 1 (Json.Elements spellings) := fun span _ hmem =>
    Json.deeperThan_elements ⟨_, hmem, span.deeperThan⟩
  cases e with
  | scalar kind span =>
    rw [SpelledAs]
    exact Json.deeperThan_variant (htuple span (by simp))
  | dict entries span =>
    rw [SpelledAs]
    exact Json.deeperThan_variant (htuple span (by simp))
  | call callee args span =>
    rw [SpelledAs]
    exact Json.deeperThan_variant (htuple span (by simp))
  | name ident =>
    rw [SpelledAs]
    exact Json.deeperThan_variant ident.deeperThan

theorem Stmt.deeperThan (s : Stmt) : DeeperThan 1 s.SpelledAs := by
  cases s with
  | expr e => exact Json.deeperThan_variant fun value h hdepth => e.deeperThan value h (by omega)
  | ret e? span => exact Json.deeperThan_variant Json.deeperThan_zero_elements
  | assign a => exact Json.deeperThan_variant (Json.deeperThan_zero_structure (by simp))

theorem FunctionDecl.deeperThan (f : FunctionDecl) : DeeperThan 1 f.SpelledAs :=
  Json.deeperThan_structure "span" (by simp) (by simp) f.span.deeperThan

theorem RecordDecl.deeperThan (r : RecordDecl) : DeeperThan 1 r.SpelledAs :=
  Json.deeperThan_structure "span" (by simp) (by simp) r.span.deeperThan

theorem Module.deeperThan (m : Module) : DeeperThan 1 m.SpelledAs :=
  Json.deeperThan_structure "items" (by simp) (List.mem_singleton.mpr rfl)
    Json.deeperThan_zero_elements

/-! ## Spans and kinds -/

theorem bound_exact (n : Nat) (bound : UInt64) :
    Exact n (fun value => value.bound? = some bound) (· = .nat bound.toNat) (.nat bound.toNat) where
  spelled := bound?_eq_some_iff.mp
  depth_le _ := by simp
  read h _ := bound?_eq_some_iff.mpr h

theorem Span.exact (n : Nat) (s : Span) :
    Exact n (fun value => Span.ofJson? n value = some s) s.SpelledAs s.toJson := by
  cases n with
  | zero => exact .of_deeperThan (fun value => by simp [ofJson?]) s.deeperThan
  | succ levels =>
    refine (Exact.elements ?_).congr fun value => ofJson?_eq_some_iff
    exact .cons (bound_exact levels s.start) (.cons (bound_exact levels s.stop) .nil)

theorem Scalar.exact (n : Nat) (k : Scalar) :
    Exact n (fun value => Scalar.ofJson? n value = some k) k.SpelledAs (.str k.label) where
  spelled {value} h := by
    unfold ofJson? at h
    split at h
    · exact .inl (by rw [ofLabel?_eq_some_iff.mp h])
    · exact .inr (by rw [ofLabel?_eq_some_iff.mp h])
    · exact nomatch h
  depth_le _ := by simp
  read {value} h hdepth := by
    have hlabel := ofLabel?_eq_some_iff.mpr (rfl : k.label = k.label)
    rcases h with rfl | rfl
    · rw [ofJson?, hlabel]
    · cases n with
      | zero => exact absurd hdepth Json.not_depth_obj_le_zero
      | succ levels => rw [ofJson?, hlabel]

/-! ## Annotations and expressions -/

theorem Ident.exact (n : Nat) (i : Ident) :
    Exact n (fun value => Ident.ofJson? n value = some i) i.SpelledAs i.toJson := by
  cases n with
  | zero =>
    exact .of_deeperThan (fun value => by simp [ofJson?]) (Json.deeperThan_zero_structure (by simp))
  | succ levels =>
    refine (Exact.members ?_ (by simp)).congr fun value => ofJson?_eq_some_iff
    exact .required (.text levels i.name) (.required (i.span.exact levels) .nil)

theorem TyForm.exact (n : Nat) (form : TyForm) :
    Exact n (fun value => TyForm.ofJson? n value = some form) form.SpelledAs form.toJson := by
  induction n using Nat.strongRecOn generalizing form with
  | ind n ih =>
    match n with
    | 0 | 1 | 2 =>
      refine .of_deeperThan (fun value => by simp [ofJson?]) fun value h hdepth => ?_
      exact form.deeperThan value h (by omega)
    | levels + 3 =>
      refine Exact.congr ?_ fun value => ofJson?_eq_some_iff
      cases form with
      | named ident =>
        rw [SpelledAs, toJson]
        exact .variant "Named" (ident.exact (levels + 2))
      | callable params returns span =>
        rw [SpelledAs, toJson, spellings_eq_map, toJsonAll_eq_map]
        refine .variant "Callable" (.members ?_ (by simp))
        exact .required (.list (ih levels (by omega)) params)
          (.required (ih (levels + 1) (by omega) returns)
          (.required (span.exact (levels + 1)) .nil))

theorem Expr.exact (n : Nat) (e : Expr) :
    Exact n (fun value => Expr.ofJson? n value = some e) e.SpelledAs e.toJson := by
  induction n using Nat.strongRecOn generalizing e with
  | ind n ih =>
    match n with
    | 0 | 1 | 2 =>
      refine .of_deeperThan (fun value => by simp [ofJson?]) fun value h hdepth => ?_
      exact e.deeperThan value h (by omega)
    | levels + 3 =>
      refine Exact.congr ?_ fun value => ofJson?_eq_some_iff
      cases e with
      | scalar kind span =>
        rw [SpelledAs, toJson]
        exact .variant "Scalar" (.elements
          (.cons (kind.exact (levels + 1)) (.cons (span.exact (levels + 1)) .nil)))
      | dict entries span =>
        rw [SpelledAs, toJson, entrySpellings_eq_map, toJsonEntries_eq_map]
        refine .variant "Dict" (.elements
          (.cons (.list (fun entry => ?_) entries) (.cons (span.exact (levels + 1)) .nil)))
        cases levels with
        | zero =>
          exact .of_deeperThan (fun value => by simp [entryWithin?])
            (Json.deeperThan_zero_structure (by simp))
        | succ levels =>
          refine (Exact.members ?_ (by simp)).congr fun value => Entry.ofJson?_eq_some_iff
          exact .required (.text levels entry.key) (.required (ih levels (by omega) entry.value)
            (.required (entry.span.exact levels) .nil))
      | call callee args span =>
        rw [SpelledAs, toJson, spellings_eq_map, toJsonAll_eq_map]
        exact .variant "Call" (.elements (.cons (callee.exact (levels + 1))
          (.cons (.list (ih levels (by omega)) args) (.cons (span.exact (levels + 1)) .nil))))
      | name ident =>
        rw [SpelledAs, toJson]
        exact .variant "Name" (ident.exact (levels + 2))

theorem TyForm.ofJson?_null (n : Nat) : TyForm.ofJson? n .null = none := by
  match n with
  | 0 | 1 | 2 | levels + 3 => simp [ofJson?, Json.variant?]

theorem Expr.ofJson?_null (n : Nat) : Expr.ofJson? n .null = none := by
  match n with
  | 0 | 1 | 2 => simp [ofJson?]
  | levels + 3 => simp [ofJson?_add_three, Json.variant?]

/-! ## Statements and declarations -/

theorem Assignment.exact (n : Nat) (a : Assignment) :
    Exact n (fun value => Assignment.ofJson? n value = some a) a.SpelledAs a.toJson := by
  cases n with
  | zero =>
    exact .of_deeperThan (fun value => by simp [ofJson?]) (Json.deeperThan_zero_structure (by simp))
  | succ levels =>
    have hform := Exact.optional (TyForm.exact levels) (TyForm.ofJson?_null levels) a.form
    refine (Exact.members ?_ (by simp)).congr fun value => ofJson?_eq_some_iff
    exact .required (a.target.exact levels) (.omissible hform (fun h => by simp [h, Json.ofOption])
      (.required (a.value.exact levels) (.required (a.span.exact levels) .nil)))

theorem Stmt.exact (n : Nat) (s : Stmt) :
    Exact n (fun value => Stmt.ofJson? n value = some s) s.SpelledAs s.toJson := by
  match n with
  | 0 | 1 =>
    refine .of_deeperThan (fun value => by simp [ofJson?]) fun value h hdepth => ?_
    exact s.deeperThan value h (by omega)
  | levels + 2 =>
    refine Exact.congr ?_ fun value => ofJson?_eq_some_iff
    cases s with
    | expr e => exact .variant "Expr" (e.exact (levels + 1))
    | ret e? span =>
      exact .variant "Return" (.elements
        (.cons (.optional (Expr.exact levels) (Expr.ofJson?_null levels) e?)
          (.cons (span.exact levels) .nil)))
    | assign a => exact .variant "Assign" (a.exact (levels + 1))

theorem ParamDecl.exact (n : Nat) (p : ParamDecl) :
    Exact n (fun value => ParamDecl.ofJson? n value = some p) p.SpelledAs p.toJson := by
  cases n with
  | zero =>
    exact .of_deeperThan (fun value => by simp [ofJson?]) (Json.deeperThan_zero_structure (by simp))
  | succ levels =>
    refine (Exact.members ?_ (by simp)).congr fun value => ofJson?_eq_some_iff
    exact .required (p.name.exact levels) (.required (p.form.exact levels)
      (.required (p.span.exact levels) .nil))

theorem FunctionDecl.exact (n : Nat) (f : FunctionDecl) :
    Exact n (fun value => FunctionDecl.ofJson? n value = some f) f.SpelledAs f.toJson := by
  match n with
  | 0 | 1 =>
    refine .of_deeperThan (fun value => by simp [ofJson?]) fun value h hdepth => ?_
    exact f.deeperThan value h (by omega)
  | levels + 2 =>
    refine (Exact.members ?_ (by simp)).congr fun value => ofJson?_eq_some_iff
    exact .required (f.name.exact (levels + 1))
      (.required (.list (ParamDecl.exact levels) f.params)
      (.required (f.returns.exact (levels + 1))
      (.required (.list (Stmt.exact levels) f.body)
      (.required (f.span.exact (levels + 1)) .nil))))

theorem FieldDecl.exact (n : Nat) (f : FieldDecl) :
    Exact n (fun value => FieldDecl.ofJson? n value = some f) f.SpelledAs f.toJson := by
  cases n with
  | zero =>
    exact .of_deeperThan (fun value => by simp [ofJson?]) (Json.deeperThan_zero_structure (by simp))
  | succ levels =>
    have hrequired := Exact.optional (Exact.mark levels) rfl f.required
    refine (Exact.members ?_ (by simp)).congr fun value => ofJson?_eq_some_iff
    exact .required (f.name.exact levels) (.required (f.form.exact levels)
      (.omissible hrequired (fun h => by simp [h, Json.ofOption])
      (.required (f.span.exact levels) .nil)))

theorem RecordDecl.exact (n : Nat) (r : RecordDecl) :
    Exact n (fun value => RecordDecl.ofJson? n value = some r) r.SpelledAs r.toJson := by
  match n with
  | 0 | 1 =>
    refine .of_deeperThan (fun value => by simp [ofJson?]) fun value h hdepth => ?_
    exact r.deeperThan value h (by omega)
  | levels + 2 =>
    refine (Exact.members ?_ (by simp)).congr fun value => ofJson?_eq_some_iff
    exact .required (r.name.exact (levels + 1))
      (.omissible (.list (Ident.exact levels) r.bases) (fun h => by simp [h])
      (.omissible (.mark (levels + 1) r.total) (fun _ => by simp)
      (.required (.list (FieldDecl.exact levels) r.fields)
      (.required (r.span.exact (levels + 1)) .nil))))

theorem Item.exact (n : Nat) (item : Item) :
    Exact n (fun value => Item.ofJson? n value = some item) item.SpelledAs item.toJson := by
  cases n with
  | zero =>
    refine .of_deeperThan (fun value => by simp [ofJson?]) ?_
    cases item <;> exact Json.deeperThan_zero_variant
  | succ levels =>
    refine Exact.congr ?_ fun value => ofJson?_eq_some_iff
    cases item with
    | function decl => exact .variant "Function" (decl.exact levels)
    | record decl => exact .variant "Record" (decl.exact levels)
    | stmt s => exact .variant "Stmt" (s.exact levels)

/-- The reader is exact on modules: within the levels it has, it reads as a module whatever spells
that module and nothing else. -/
theorem Module.exact (n : Nat) (m : Module) :
    Exact n (fun value => Module.ofJson? n value = some m) m.SpelledAs m.toJson := by
  match n with
  | 0 | 1 =>
    refine .of_deeperThan (fun value => by simp [ofJson?]) fun value h hdepth => ?_
    exact m.deeperThan value h (by omega)
  | levels + 2 =>
    refine (Exact.members ?_ (by simp)).congr fun value => ofJson?_eq_some_iff
    exact .required (.list (Item.exact levels) m.items) .nil

end Conform
