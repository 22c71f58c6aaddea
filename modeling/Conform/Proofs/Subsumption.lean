import Conform.Proofs.Conforms
import Conform.Proofs.Transitivity
import Conform.Proofs.WellFormed

/-!
# Subsumption

Where a type is accepted, its values should be. A dict literal may have no entry that is one of no
field, so a literal of a wider record is not a value of a narrower one as it stands. But **what is
left of it is, once the entries that the narrower one does not declare are dropped at every depth**
(`Ty.valueMismatch?_restrict`).

Optional fields are allowed here, although acceptance of types does not compose with them. What
breaks it there is a record that has more than the type it is accepted for tells, under the name of
an optional field that this type leaves out. A dict literal cannot do that: it has no entry but
those that the type declares, and these have been compared with the fields of the narrower record.
So the theorem is about literals all the way down; a name that stands for a record breaks it again.
-/

namespace Conform

variable {w : Widening}

/-! ## Literals -/

/-- An expression without names and calls. -/
inductive Expr.IsLiteral : Expr → Prop
  | scalar (kind : Scalar) (span : Span) : IsLiteral (.scalar kind span)
  | dict {entries : List (Entry Expr)} {span : Span}
      (hvalues : ∀ entry ∈ entries, entry.value.IsLiteral) : IsLiteral (.dict entries span)

mutual

/-- An expression without the entries that a type does not declare: where a record is expected of a
dict literal, only the entries of its fields stay, each without what the type of its field does not
declare. -/
def Expr.restrict : Expr → Ty → Expr
  | .dict entries span, .record _ fields => .dict (Expr.restrictEntries entries fields) span
  | e, _ => e

/-- The entries that are ones of a field, each restricted to its type. -/
def Expr.restrictEntries : List (Entry Expr) → List (Field Ty) → List (Entry Expr)
  | [], _ => []
  | ⟨key, value, span⟩ :: rest, fields =>
    match fieldNamed? fields key with
    | some field => ⟨key, value.restrict field.ty, span⟩ :: Expr.restrictEntries rest fields
    | none => Expr.restrictEntries rest fields

end

/-- What is left of an entry where some fields are declared. -/
def Entry.restrict? (fields : List (Field Ty)) (entry : Entry Expr) : Option (Entry Expr) :=
  (fieldNamed? fields entry.key).map fun field =>
    { entry with value := entry.value.restrict field.ty }

theorem restrictEntries_eq_filterMap (entries : List (Entry Expr)) (fields : List (Field Ty)) :
    Expr.restrictEntries entries fields = entries.filterMap (Entry.restrict? fields) := by
  induction entries with
  | nil => rfl
  | cons entry rest ih =>
    rw [Expr.restrictEntries, ih, List.filterMap_cons, Entry.restrict?]
    cases fieldNamed? fields entry.key <;> rfl

/-! ## Literals where their type is accepted -/

/-- Dict literals carry over between records if the entries that count do. An entry of an expected
field is one of the record it was checked against, hence its type was compared. -/
theorem Conforms.restrict_dict {Γ : Context} {m n : Option String}
    {expected declared : List (Field Ty)} {entries : List (Entry Expr)} {span : Span}
    (hnodup : (expected.map Field.name).Nodup)
    (hentries : ∀ field ∈ expected, ∀ other ∈ declared, ∀ entry ∈ entries,
      Assignable w field.ty other.ty → Conforms w Γ other.ty entry.value →
        Conforms w Γ field.ty (entry.value.restrict field.ty))
    (h : Assignable w (.record m expected) (.record n declared))
    (he : Conforms w Γ (.record n declared) (.dict entries span)) :
    Conforms w Γ (.record m expected) (.dict (Expr.restrictEntries entries expected) span) := by
  cases h with
  | record hrequired hshared =>
    cases he with
    | dict hpresent hvalues hextra =>
      rw [restrictEntries_eq_filterMap]
      apply Conforms.dict_filterMap
      · intro entry made hmade
        obtain ⟨_, _, rfl⟩ := Option.map_eq_some_iff.mp hmade
        rfl
      · intro entry
        rw [Entry.restrict?, Option.isSome_map, isSome_fieldNamed?_iff]
      · intro field hfield hreq
        obtain ⟨other, hother, hreq'⟩ := hrequired field hfield hreq
        rw [← fieldNamed?_name hother]
        exact hpresent other (fieldNamed?_mem hother) hreq'
      · intro field hfield entry hcounts made hmade
        obtain ⟨hentry, hkey⟩ := hcounts.mem
        obtain ⟨found, hfound, rfl⟩ := Option.map_eq_some_iff.mp hmade
        have hfield' := (fieldNamed?_eq_some_iff hnodup).mpr ⟨hfield, hkey.symm⟩
        obtain rfl := Option.some.inj (hfield'.symm.trans hfound)
        -- No entry is extra for the record it was checked against, so that one has a field for it.
        have hdeclared := isSome_fieldNamed?_iff.mpr (hextra entry hentry)
        obtain ⟨other, hother⟩ := Option.isSome_iff_exists.mp hdeclared
        have hmem := fieldNamed?_mem hother
        rw [hkey] at hother
        rw [← fieldNamed?_name hother] at hcounts
        exact hentries field hfield other hmem entry hentry (hshared field hfield other hother)
          (hvalues other hmem entry hcounts)

/-- A literal of a type is, less what another type does not declare, a literal of the other type
wherever the first one is accepted for it. -/
theorem Conforms.restrict (hw : w.Transitive) {Γ : Context} {expected declared : Ty} {e : Expr}
    (hexpected : expected.WellFormed) (hliteral : e.IsLiteral)
    (h : Assignable w expected declared) (he : Conforms w Γ declared e) :
    Conforms w Γ expected (e.restrict expected) := by
  induction hliteral generalizing expected declared with
  | scalar kind span =>
    cases he with
    | scalar hpermits =>
      cases h with
      | scalar hpermits' => exact .scalar (hw _ _ _ hpermits hpermits')
  | dict _ ih =>
    cases hexpected with
    | scalar _ => cases he with | dict => cases h
    | callable _ _ _ => cases he with | dict => cases h
    | record hnodup hfields =>
      cases he with
      | dict hpresent hvalues hextra =>
        refine .restrict_dict hnodup ?_ h (.dict hpresent hvalues hextra)
        intro field hfield other _ entry hentry
        exact ih entry hentry (hfields field hfield)

/-- A literal that is accepted at a type is accepted, less the entries that are not declared there,
wherever that type is. -/
theorem Ty.valueMismatch?_restrict (hw : w.Transitive) {expected declared : Ty} {scope : Scope}
    {e : Expr} (hexpected : expected.WellFormed) (hliteral : e.IsLiteral)
    (h : expected.mismatch? w declared = none)
    (he : declared.valueMismatch? w scope e = none) :
    expected.valueMismatch? w scope (e.restrict expected) = none := by
  rw [mismatch?_eq_none_iff] at h
  rw [valueMismatch?_eq_none_iff scope.fits_context] at he ⊢
  exact he.restrict hw hexpected hliteral h

/-- What has a price, and may have a note that tells its language. -/
def priced : Ty :=
  .record (some "Priced")
    [⟨"price", .scalar .float, true⟩,
      ⟨"note", .record none [⟨"lang", .scalar .str, false⟩], false⟩]

theorem wellFormed_priced : priced.WellFormed := by
  refine .record (by decide) ?_
  rw [List.forall_mem_cons, List.forall_mem_singleton]
  refine ⟨.scalar .float, .record (by decide) ?_⟩
  rw [List.forall_mem_singleton]
  exact .scalar .str

/-- An article has a stock as well, a price that is an `int`, and more in its note. -/
def article : Ty :=
  .record (some "Article")
    [⟨"stock", .scalar .int, true⟩,
      ⟨"note", .record none [⟨"text", .scalar .str, true⟩, ⟨"lang", .scalar .str, false⟩], true⟩,
      ⟨"price", .scalar .int, true⟩]

/-- A literal with a note, further entries and two prices, of which the later one counts. -/
def repriced (note rest : List (Entry Expr)) : Expr :=
  .dict ([scalarEntry "price" .str, ⟨"note", .dict note ⟨0, 1⟩, ⟨0, 1⟩⟩,
    scalarEntry "price" .bool] ++ rest) ⟨0, 1⟩

/-- A literal of an article. -/
def novel : Expr :=
  repriced [scalarEntry "lang" .str, scalarEntry "text" .str] [scalarEntry "stock" .int]

theorem isLiteral_novel : novel.IsLiteral := by
  refine .dict ?_
  simp only [List.forall_mem_append, List.forall_mem_cons]
  refine ⟨⟨.scalar _ _, .dict ?_, .scalar _ _, List.forall_mem_nil _⟩, .scalar _ _,
    List.forall_mem_nil _⟩
  simp only [List.forall_mem_cons]
  exact ⟨.scalar _ _, .scalar _ _, List.forall_mem_nil _⟩

/-- A literal of an article has a price, once its stock is dropped and, one level further down, the
text of its note. -/
theorem valueMismatch?_restrict_novel :
    priced.mismatch? numeric article = none ∧
      article.valueMismatch? numeric .empty novel = none ∧
      novel.restrict priced = repriced [scalarEntry "lang" .str] [] ∧
      priced.valueMismatch? numeric .empty (repriced [scalarEntry "lang" .str] []) = none := by
  have htype : priced.mismatch? numeric article = none := by decide +kernel
  have hvalue : article.valueMismatch? numeric .empty novel = none := by decide +kernel
  have hleft : novel.restrict priced = repriced [scalarEntry "lang" .str] [] := rfl
  refine ⟨htype, hvalue, hleft, ?_⟩
  rw [← hleft]
  exact Ty.valueMismatch?_restrict transitive_numeric wellFormed_priced isLiteral_novel htype
    hvalue

-- It fails of a name, whose type may tell of more than the type between does.
example :
    let scope := Scope.empty.bind "x" (.typed (.record none [⟨"a", .scalar .str, true⟩]))
    let expected := Ty.record none [⟨"a", .scalar .int, false⟩]
    let x := Expr.name ⟨"x", ⟨0, 1⟩⟩
    expected.mismatch? .empty (.record none []) = none ∧
      (Ty.record none []).valueMismatch? .empty scope x = none ∧
      expected.valueMismatch? .empty scope (x.restrict expected) ≠ none := by
  decide +kernel

end Conform
