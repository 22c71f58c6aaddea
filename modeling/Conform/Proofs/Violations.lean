import Conform.Proofs.Conforms
import Conform.Proofs.Evidence

/-!
# The first violation of a dict literal

A record may be violated by a dict literal in many ways at once, and one of them is reported. It is
**the first violated field in the order of the record, and only if there is none the first entry of
the literal that is one of no field** (`FirstViolation`). The entries are read from both ends for
it: the last one of a key is its value, but the first undeclared one is reported.

Literals stand inside literals, so the value of a field may have been violated in the same way. The
path of what is found leads through fields that are declared and have an entry, down to where the
reason holds (`Expr.Descends`, `Expr.Refuses`). Where it comes to a name or a call, the rest of it
leads through the type that is known of it, as in the comparison of two types.
-/

namespace Conform

variable {w : Widening} {scope : Scope}

/-! ## One literal -/

/-- The entries of a dict literal violate one field of a record: it is required and has no entry, or
the entry that counts for it is not accepted for its type. -/
inductive Field.Violated (w : Widening) (scope : Scope) (entries : List (Entry Expr))
    (field : Field Ty) : Mismatch → Prop
  | missing (hrequired : field.required = true)
      (habsent : ∀ entry ∈ entries, entry.key ≠ field.name) :
      field.Violated w scope entries ⟨.missingKey field.name, [.field field.name]⟩
  | value {entry : Entry Expr} {cause : Mismatch} (hcounts : Counts entries field.name entry)
      (hcause : field.ty.valueMismatch? w scope entry.value = some cause) :
      field.Violated w scope entries (cause.within (.field field.name))

/-- An entry is one of no field. -/
def Undeclared (fields : List (Field Ty)) (entry : Entry Expr) : Prop :=
  ∀ field ∈ fields, field.name ≠ entry.key

/-- The violation of a record by a dict literal that is reported. -/
inductive FirstViolation (w : Widening) (scope : Scope) (fields : List (Field Ty))
    (entries : List (Entry Expr)) : Mismatch → Prop
  | field {before after : List (Field Ty)} {field : Field Ty} {found : Mismatch}
      (hsplit : fields = before ++ field :: after)
      (hbefore : ∀ earlier ∈ before, ∀ other, ¬ earlier.Violated w scope entries other)
      (hviolated : field.Violated w scope entries found) :
      FirstViolation w scope fields entries found
  | extra {before after : List (Entry Expr)} {entry : Entry Expr}
      (hfields : ∀ field ∈ fields, ∀ other, ¬ field.Violated w scope entries other)
      (hsplit : entries = before ++ entry :: after)
      (hbefore : ∀ earlier ∈ before, ¬ Undeclared fields earlier)
      (hextra : Undeclared fields entry) :
      FirstViolation w scope fields entries ⟨.extraKey entry.key, [.field entry.key]⟩

theorem Field.entryMismatch?_eq_some_iff {entries : List (Entry Expr)} {field : Field Ty}
    {found : Mismatch} :
    field.entryMismatch? w scope entries = some found ↔ field.Violated w scope entries found := by
  unfold Field.entryMismatch?
  rw [Option.map_eq_some_iff]
  constructor
  · intro h
    obtain ⟨cause, hcause, rfl⟩ := h
    cases hentry : entryOf? entries field.name with
    | some entry =>
      rw [hentry] at hcause
      exact .value (entryOf?_eq_some_iff.mp hentry) hcause
    | none =>
      rw [hentry] at hcause
      obtain ⟨hrequired, rfl⟩ :
          field.required = true ∧ (Reason.missingKey field.name).atRoot = cause := by
        simpa using hcause
      exact .missing hrequired (entryOf?_eq_none_iff.mp hentry)
  · intro h
    cases h with
    | missing hrequired habsent =>
      rw [entryOf?_eq_none_iff.mpr habsent]
      exact ⟨(Reason.missingKey field.name).atRoot, if_pos hrequired, rfl⟩
    | value hcounts hcause =>
      rw [entryOf?_eq_some_iff.mpr hcounts]
      exact ⟨_, hcause, rfl⟩

theorem Field.entryMismatch?_eq_none_iff_violated {entries : List (Entry Expr)} {field : Field Ty} :
    field.entryMismatch? w scope entries = none ↔
      ∀ found, ¬ field.Violated w scope entries found := by
  simp only [Option.eq_none_iff_forall_ne_some, ne_eq, Field.entryMismatch?_eq_some_iff]

theorem fieldsMismatch?_eq_some_iff {fields : List (Field Ty)} {entries : List (Entry Expr)}
    {found : Mismatch} :
    Ty.fieldsMismatch? w scope fields entries = some found ↔
      ∃ before field after, fields = before ++ field :: after ∧
        field.Violated w scope entries found ∧
        ∀ earlier ∈ before, ∀ other, ¬ earlier.Violated w scope entries other := by
  rw [fieldsMismatch?_eq_findSome?, List.findSome?_eq_some_iff]
  simp only [Field.entryMismatch?_eq_some_iff, Field.entryMismatch?_eq_none_iff_violated]

theorem fieldsMismatch?_eq_none_iff {fields : List (Field Ty)} {entries : List (Entry Expr)} :
    Ty.fieldsMismatch? w scope fields entries = none ↔
      ∀ field ∈ fields, ∀ found, ¬ field.Violated w scope entries found := by
  rw [fieldsMismatch?_eq_findSome?, List.findSome?_eq_none_iff]
  simp only [Field.entryMismatch?_eq_none_iff_violated]

theorem fieldNamed?_isNone_iff {fields : List (Field Ty)} {entry : Entry Expr} :
    (fieldNamed? fields entry.key).isNone = true ↔ Undeclared fields entry := by
  simp [fieldNamed?, Undeclared, List.find?_eq_none]

theorem firstExtra?_eq_some_iff {fields : List (Field Ty)} {entries : List (Entry Expr)}
    {entry : Entry Expr} :
    firstExtra? fields entries = some entry ↔
      ∃ before after, entries = before ++ entry :: after ∧ Undeclared fields entry ∧
        ∀ earlier ∈ before, ¬ Undeclared fields earlier := by
  unfold firstExtra?
  rw [List.find?_eq_some_iff_append]
  simp only [Bool.not_eq_true', ← Bool.not_eq_true, fieldNamed?_isNone_iff]
  constructor
  · intro h
    obtain ⟨hextra, before, after, hsplit, hbefore⟩ := h
    exact ⟨before, after, hsplit, hextra, hbefore⟩
  · intro h
    obtain ⟨before, after, hsplit, hextra, hbefore⟩ := h
    exact ⟨hextra, before, after, hsplit, hbefore⟩

/-- What is found against a dict literal is its first violation. -/
theorem dictMismatch?_eq_some_iff {name : Option String} {fields : List (Field Ty)}
    {entries : List (Entry Expr)} {span : Span} {found : Mismatch} :
    (Ty.record name fields).valueMismatch? w scope (.dict entries span) = some found ↔
      FirstViolation w scope fields entries found := by
  rw [Ty.valueMismatch?, Option.or_eq_some_iff, Option.map_eq_some_iff, fieldsMismatch?_eq_some_iff,
    fieldsMismatch?_eq_none_iff]
  simp only [firstExtra?_eq_some_iff]
  constructor
  · intro h
    rcases h with ⟨before, field, after, hsplit, hviolated, hbefore⟩ |
      ⟨hfields, entry, ⟨before, after, hsplit, hextra, hbefore⟩, rfl⟩
    · exact .field hsplit hbefore hviolated
    · exact .extra hfields hsplit hbefore hextra
  · intro h
    cases h with
    | field hsplit hbefore hviolated => exact .inl ⟨_, _, _, hsplit, hviolated, hbefore⟩
    | extra hfields hsplit hbefore hextra =>
      exact .inr ⟨hfields, _, ⟨_, _, hsplit, hextra, hbefore⟩, rfl⟩

/-- There is something to find as soon as one field is violated or one entry is undeclared. -/
theorem exists_dictMismatch?_iff {name : Option String} {fields : List (Field Ty)}
    {entries : List (Entry Expr)} {span : Span} :
    (∃ found, (Ty.record name fields).valueMismatch? w scope (.dict entries span) = some found) ↔
      (∃ field ∈ fields, ∃ found, field.Violated w scope entries found) ∨
        ∃ entry ∈ entries, Undeclared fields entry := by
  have hextra : firstExtra? fields entries = none ↔
      ∀ entry ∈ entries, ¬ Undeclared fields entry := by
    simp [firstExtra?_eq_none_iff, Undeclared]
  rw [← Option.ne_none_iff_exists', Ty.valueMismatch?, ne_eq, Option.or_eq_none_iff,
    Option.map_eq_none_iff, fieldsMismatch?_eq_none_iff, hextra, not_and_or]
  push Not
  rfl

/-! ## Literals inside literals -/

/-- The type that is known of a name or of the result of a call. -/
inductive Expr.KnownAs (scope : Scope) : Expr → Ty → Prop
  | name {ident : Ident} {ty : Ty} (h : scope.valueType? ident.name = some ty) :
      Expr.KnownAs scope (.name ident) ty
  | call {callee : Ident} {args : List Expr} {span : Span} {signature : Signature}
      (h : scope.callable? callee.name = some signature) :
      Expr.KnownAs scope (.call callee args span) signature.returns

/-- An expression has a form that is judged further where a type is expected: names and calls
always, a literal where its own kind of type is. -/
def Ty.AdmitsForm : Ty → Expr → Prop
  | _, .name _ => True
  | _, .call .. => True
  | .scalar _, .scalar .. => True
  | .record .., .dict .. => True
  | _, _ => False

/-- The search goes on from a record and a dict literal to the type of a field and the value that
counts for it, once no field before it is violated. -/
inductive Expr.Descends (w : Widening) (scope : Scope) : Ty × Expr → Segment → Ty × Expr → Prop
  | field {name : Option String} {before after : List (Field Ty)} {field : Field Ty}
      {entries : List (Entry Expr)} {span : Span} {entry : Entry Expr}
      (hbefore : ∀ earlier ∈ before, ∀ other, ¬ earlier.Violated w scope entries other)
      (hcounts : Counts entries field.name entry) :
      Expr.Descends w scope (.record name (before ++ field :: after), .dict entries span)
        (.field field.name) (field.ty, entry.value)

/-- The search stops where it stands. A key that is missing or extra is named by the path, since
there is no pair of a type and a value for it. -/
inductive Expr.Refuses (w : Widening) (scope : Scope) : Ty × Expr → Mismatch → Prop
  | scalar {expected actual : Scalar} {span : Span} (h : w.permits actual expected = false) :
      Expr.Refuses w scope (.scalar expected, .scalar actual span)
        ⟨.incompatible expected.keyword actual.keyword, []⟩
  | form {expected : Ty} {e : Expr} (h : ¬ expected.AdmitsForm e) :
      Expr.Refuses w scope (expected, e) ⟨.incompatible expected.render (e.describe scope), []⟩
  | missing {name : Option String} {before after : List (Field Ty)} {field : Field Ty}
      {entries : List (Entry Expr)} {span : Span}
      (hbefore : ∀ earlier ∈ before, ∀ other, ¬ earlier.Violated w scope entries other)
      (hrequired : field.required = true)
      (habsent : ∀ entry ∈ entries, entry.key ≠ field.name) :
      Expr.Refuses w scope (.record name (before ++ field :: after), .dict entries span)
        ⟨.missingKey field.name, [.field field.name]⟩
  | extra {name : Option String} {fields : List (Field Ty)} {before after : List (Entry Expr)}
      {entry : Entry Expr} {span : Span}
      (hfields : ∀ field ∈ fields, ∀ other,
        ¬ field.Violated w scope (before ++ entry :: after) other)
      (hbefore : ∀ earlier ∈ before, ¬ Undeclared fields earlier)
      (hextra : Undeclared fields entry) :
      Expr.Refuses w scope (.record name fields, .dict (before ++ entry :: after) span)
        ⟨.extraKey entry.key, [.field entry.key]⟩
  | known {expected ty : Ty} {e : Expr} {types : Ty × Ty} {front rest : List Segment}
      {reason : Reason} (hknown : e.KnownAs scope ty)
      (hpath : Follows (Ty.Descends w) (expected, ty) front types)
      (hrefuses : Ty.Refuses w types ⟨reason, rest⟩) :
      Expr.Refuses w scope (expected, e) ⟨reason, front ++ rest⟩

theorem Expr.KnownAs.valueMismatch?_eq {e : Expr} {ty : Ty} (h : e.KnownAs scope ty)
    (expected : Ty) : expected.valueMismatch? w scope e = expected.mismatch? w ty := by
  cases h with
  | name h => rw [Ty.valueMismatch?, h, Option.bind_some]
  | call h => rw [Ty.valueMismatch?, h, Option.bind_some]

theorem valueMismatch?_of_not_admitsForm {expected : Ty} {e : Expr} (h : ¬ expected.AdmitsForm e) :
    expected.valueMismatch? w scope e =
      some (Reason.incompatible expected.render (e.describe scope)).atRoot := by
  cases expected <;> cases e <;> simp_all [Ty.AdmitsForm, Ty.valueMismatch?]

namespace Expr

/-- What is found against the type that is known of an expression is explained by that type. -/
theorem refuses_of_known {expected ty : Ty} {e : Expr} {found : Mismatch}
    (hknown : e.KnownAs scope ty) (hfound : expected.mismatch? w ty = some found) :
    Refuses w scope (expected, e) found := by
  obtain ⟨reason, path⟩ := found
  obtain ⟨types, front, rest, rfl, hpath, hrefuses⟩ :=
    (Ty.explains_mismatch? w).exists_follows (expected, ty) hfound
  exact .known hknown hpath hrefuses

/-- A dict literal: a key is missing or extra, or the search goes on to the value of a field. -/
theorem refuses_or_descends_dict {name : Option String} {fields : List (Field Ty)}
    {entries : List (Entry Expr)} {span : Span} {found : Mismatch}
    (h : FirstViolation w scope fields entries found) :
    Refuses w scope (.record name fields, .dict entries span) found ∨
      FoundNext (fun place : Ty × Expr => place.1.valueMismatch? w scope place.2) (Descends w scope)
        (.record name fields, .dict entries span) found := by
  cases h with
  | field hsplit hbefore hviolated =>
    subst hsplit
    cases hviolated with
    | missing hrequired habsent => exact .inl (.missing hbefore hrequired habsent)
    | value hcounts hcause => exact .inr ⟨_, _, _, .field hbefore hcounts, hcause, rfl⟩
  | extra hfields hsplit hbefore hextra =>
    subst hsplit
    exact .inl (.extra hfields hbefore hextra)

/-- The comparison of a type with an expression is a search that descends. -/
theorem explains_valueMismatch? (w : Widening) (scope : Scope) :
    Explains (fun place : Ty × Expr => place.1.valueMismatch? w scope place.2) (Descends w scope)
      (Refuses w scope) where
  search_of_stops place found hstops := by
    cases hstops with
    | scalar h => exact Scalar.mismatch?_eq_some_iff.mpr ⟨h, rfl⟩
    | form h => exact valueMismatch?_of_not_admitsForm h
    | missing hbefore hrequired habsent =>
      exact dictMismatch?_eq_some_iff.mpr (.field rfl hbefore (.missing hrequired habsent))
    | extra hfields hbefore hextra =>
      exact dictMismatch?_eq_some_iff.mpr (.extra hfields rfl hbefore hextra)
    | known hknown hpath hrefuses =>
      exact (hknown.valueMismatch?_eq _).trans
        ((Ty.explains_mismatch? w).search_of_follows hpath hrefuses)
  search_of_next place segment between found hnext hbetween := by
    cases hnext with
    | field hbefore hcounts =>
      exact dictMismatch?_eq_some_iff.mpr (.field rfl hbefore (.value hcounts hbetween))
  stops_or_next place found hfound := by
    obtain ⟨expected, e⟩ := place
    by_cases hform : expected.AdmitsForm e
    · cases e with
      | name ident =>
        rw [Ty.valueMismatch?, Option.bind_eq_some_iff] at hfound
        obtain ⟨ty, hty, hfound⟩ := hfound
        exact .inl (refuses_of_known (.name hty) hfound)
      | call callee args span =>
        rw [Ty.valueMismatch?, Option.bind_eq_some_iff] at hfound
        obtain ⟨signature, hsignature, hfound⟩ := hfound
        exact .inl (refuses_of_known (.call hsignature) hfound)
      | scalar actual span =>
        cases expected with
        | scalar expected =>
          rw [Ty.valueMismatch?] at hfound
          obtain ⟨h, rfl⟩ := Scalar.mismatch?_eq_some_iff.mp hfound
          exact .inl (.scalar h)
        | record _ _ => exact hform.elim
        | callable _ _ => exact hform.elim
      | dict entries span =>
        cases expected with
        | scalar _ => exact hform.elim
        | record name fields => exact refuses_or_descends_dict (dictMismatch?_eq_some_iff.mp hfound)
        | callable _ _ => exact hform.elim
    · rw [valueMismatch?_of_not_admitsForm hform] at hfound
      obtain rfl := Option.some.inj hfound
      exact .inl (.form hform)

end Expr

/-- A dict literal is refused exactly if a field is violated or an entry is undeclared; what is
reported is its first violation in the order of the record and then of the literal; and the path of
that leads through declared fields that have an entry, with no field violated before them, to the
type and the value of which the reason holds. -/
theorem dictMismatch?_firstViolation (w : Widening) (scope : Scope) (name : Option String)
    (fields : List (Field Ty)) (entries : List (Entry Expr)) (span : Span) :
    ((∃ found, (Ty.record name fields).valueMismatch? w scope (.dict entries span) = some found) ↔
      (∃ field ∈ fields, ∃ found, field.Violated w scope entries found) ∨
        ∃ entry ∈ entries, Undeclared fields entry) ∧
    (∀ found, (Ty.record name fields).valueMismatch? w scope (.dict entries span) = some found ↔
      FirstViolation w scope fields entries found) ∧
    ∀ reason path,
      (Ty.record name fields).valueMismatch? w scope (.dict entries span) = some ⟨reason, path⟩ ↔
        ∃ expected e front rest, path = front ++ rest ∧
          Follows (Expr.Descends w scope) (.record name fields, .dict entries span) front
            (expected, e) ∧
          Expr.Refuses w scope (expected, e) ⟨reason, rest⟩ := by
  refine ⟨exists_dictMismatch?_iff, fun found => dictMismatch?_eq_some_iff, fun reason path => ?_⟩
  have hexplains := Expr.explains_valueMismatch? w scope
  rw [hexplains.search_eq_some_iff (.record name fields, .dict entries span) reason path,
    Prod.exists]

-- The first `x` is no value, and what is missing is reported before what is extra.
example :
    (Ty.record none [⟨"x", .scalar .int, true⟩, ⟨"y", .scalar .int, true⟩]).valueMismatch? .empty
        .empty (.dict [⟨"z", .scalar .int ⟨0, 1⟩, ⟨0, 1⟩⟩, ⟨"x", .scalar .str ⟨0, 1⟩, ⟨0, 1⟩⟩,
          ⟨"x", .scalar .int ⟨0, 1⟩, ⟨0, 1⟩⟩] ⟨0, 1⟩) =
      some ⟨.missingKey "y", [.field "y"]⟩ := by
  decide +kernel

end Conform
