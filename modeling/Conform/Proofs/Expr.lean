import Conform.Usage

/-!
# Expressions and their parts

An induction for expressions that sees through the lists in them, and `Contains`: an expression
stands inside another one, at any depth or none. The names and calls that the checker walks to are
exactly the contained ones, so what it finds in an expression is free of two things that a reader
has to trust otherwise, the order of the walk and its reach (`findings_eq_nil_iff` in
`Proofs/Usage.lean`).
-/

namespace Conform

theorem Entry.sizeOf_value_lt {entry : Entry Expr} {entries : List (Entry Expr)}
    (h : entry ∈ entries) : sizeOf entry.value < sizeOf entries := by
  have h' := List.sizeOf_lt_of_mem h
  cases entry
  simp only [Entry.mk.sizeOf_spec] at h'
  dsimp only
  omega

namespace Expr

/-- What holds of every literal and name, and of a dict or call once it holds of each of its parts,
holds of every expression. -/
@[elab_as_elim]
theorem induct {motive : Expr → Prop} (scalar : ∀ kind span, motive (.scalar kind span))
    (dict : ∀ entries span, (∀ entry ∈ entries, motive entry.value) → motive (.dict entries span))
    (call : ∀ callee args span, (∀ arg ∈ args, motive arg) → motive (.call callee args span))
    (name : ∀ ident, motive (.name ident)) (e : Expr) : motive e :=
  match e with
  | .scalar kind span => scalar kind span
  | .dict entries span =>
    dict entries span fun entry h =>
      have := Entry.sizeOf_value_lt h
      induct scalar dict call name entry.value
  | .call callee args span =>
    call callee args span fun arg h =>
      have := List.sizeOf_lt_of_mem h
      induct scalar dict call name arg
  | .name ident => name ident
termination_by sizeOf e

/-- An expression stands inside another one, or is that itself. -/
inductive Contains : Expr → Expr → Prop
  | refl (e : Expr) : Contains e e
  | value {entries : List (Entry Expr)} {span : Span} {entry : Entry Expr} {e : Expr}
      (hmem : entry ∈ entries) (h : Contains entry.value e) : Contains (.dict entries span) e
  | arg {callee : Ident} {args : List Expr} {span : Span} {arg e : Expr}
      (hmem : arg ∈ args) (h : Contains arg e) : Contains (.call callee args span) e

/-! ## The walks as maps -/

theorem findingsAll_eq_flatMap (w : Widening) (scope : Scope) (es : List Expr) :
    findingsAll w scope es = es.flatMap (·.findings w scope) := by
  induction es with
  | nil => rfl
  | cons e rest ih => rw [findingsAll, ih, List.flatMap_cons]

theorem findingsEntries_eq_flatMap (w : Widening) (scope : Scope) (entries : List (Entry Expr)) :
    findingsEntries w scope entries =
      entries.flatMap fun entry => entry.value.findings w scope := by
  induction entries with
  | nil => rfl
  | cons entry rest ih =>
    obtain ⟨key, value, span⟩ := entry
    rw [findingsEntries, ih, List.flatMap_cons]

theorem describeEntries_eq_map (scope : Scope) (entries : List (Entry Expr)) :
    describeEntries scope entries =
      entries.map fun entry => Text.quoted entry.key ++ ": " ++ entry.value.describe scope := by
  induction entries with
  | nil => rfl
  | cons entry rest ih =>
    obtain ⟨key, value, span⟩ := entry
    rw [describeEntries, ih, List.map_cons]

end Expr

end Conform
