import Conform.Proofs.Conforms

/-!
# Values and their types

Values are matched by one search and types by another one. A dict literal is gone through by the
fields of the expected record, and its entries are looked up from the end; two record types are
compared field by field, with an eye to which of them may be missing. Yet an expression of which
everything is known has a type itself (`Expr.typeOf?`), and **the two searches agree on it but for
one rule** (`Expr.accepted_iff_typeOf?_accepted`): a dict literal may have no entry that is one of
no field, while a type may have more fields than the expected one.

`Meets` says where that rule applies. It descends the expected type and the literal together,
through the fields that the record has and the entries that count for them, so what an entry that
does not count has inside it is of no matter.

Nothing is asked of the names in the expected type: both searches go through its fields one by one
and look up the names on the other side, where the last entry with a key and the one field that
`Expr.fieldsOf?` makes for it answer each other.
-/

namespace Conform

variable {w : Widening} {scope : Scope}

/-! ## The type of an expression -/

mutual

/-- The type of an expression, if the scope knows enough of its names: a dict literal is a record
without a name. -/
def Expr.typeOf? (scope : Scope) : Expr → Option Ty
  | .scalar kind _ => some (.scalar kind)
  | .dict entries _ => (Expr.fieldsOf? scope entries).map (.record none)
  | .call callee _ _ => (scope.callable? callee.name).map Signature.returns
  | .name ident => scope.valueType? ident.name

/-- A required field for each key, with the type of the last entry that has the key. -/
def Expr.fieldsOf? (scope : Scope) : List (Entry Expr) → Option (List (Field Ty))
  | [] => some []
  | ⟨key, value, _⟩ :: rest => do
    let fields ← Expr.fieldsOf? scope rest
    if (fieldNamed? fields key).isSome then return fields
    else return ⟨key, ← value.typeOf? scope, true⟩ :: fields

end

namespace Expr

/-- The scope knows the type of every name in an expression and the signature of every callee. -/
structure Known (scope : Scope) (e : Expr) : Prop where
  name : ∀ ident, e.Contains (.name ident) → ∃ ty, scope.valueType? ident.name = some ty
  callee : ∀ callee args span, e.Contains (.call callee args span) →
    ∃ signature, scope.callable? callee.name = some signature

theorem known_scalar (kind : Scalar) (span : Span) : (scalar kind span).Known scope where
  name := fun _ hcontains => by cases hcontains
  callee := fun _ _ _ hcontains => by cases hcontains

theorem known_dict_iff {entries : List (Entry Expr)} {span : Span} :
    (dict entries span).Known scope ↔ ∀ entry ∈ entries, entry.value.Known scope := by
  refine ⟨fun h entry hmem => ⟨fun ident hcontains => ?_, fun callee args at' hcontains => ?_⟩,
    fun h => ⟨fun ident hcontains => ?_, fun callee args at' hcontains => ?_⟩⟩
  · exact h.name ident (.value hmem hcontains)
  · exact h.callee callee args at' (.value hmem hcontains)
  · cases hcontains with
    | value hmem hcontains => exact (h _ hmem).name ident hcontains
  · cases hcontains with
    | value hmem hcontains => exact (h _ hmem).callee callee args at' hcontains

theorem known_name_iff {ident : Ident} :
    (name ident).Known scope ↔ ∃ ty, scope.valueType? ident.name = some ty := by
  refine ⟨fun h => h.name ident (.refl _), fun h => ⟨fun other hcontains => ?_,
    fun callee args span hcontains => ?_⟩⟩
  · cases hcontains with
    | refl => exact h
  · cases hcontains

theorem known_call_iff {callee : Ident} {args : List Expr} {span : Span} :
    (call callee args span).Known scope ↔
      (∃ signature, scope.callable? callee.name = some signature) ∧
        ∀ arg ∈ args, arg.Known scope := by
  refine ⟨fun h => ⟨h.callee callee args span (.refl _), fun arg hmem => ⟨?_, ?_⟩⟩,
    fun h => ⟨fun ident hcontains => ?_, fun other args' at' hcontains => ?_⟩⟩
  · exact fun ident hcontains => h.name ident (.arg hmem hcontains)
  · exact fun other args' at' hcontains => h.callee other args' at' (.arg hmem hcontains)
  · cases hcontains with
    | arg hmem hcontains => exact (h.2 _ hmem).name ident hcontains
  · cases hcontains with
    | refl => exact h.1
    | arg hmem hcontains => exact (h.2 _ hmem).callee other args' at' hcontains

theorem exists_fieldsOf? {entries : List (Entry Expr)}
    (h : ∀ entry ∈ entries, ∃ ty, entry.value.typeOf? scope = some ty) :
    ∃ fields, fieldsOf? scope entries = some fields := by
  induction entries with
  | nil => exact ⟨[], rfl⟩
  | cons entry rest ih =>
    obtain ⟨fields, hfields⟩ := ih fun other hother => h other (List.mem_cons_of_mem _ hother)
    obtain ⟨ty, hty⟩ := h entry List.mem_cons_self
    rw [fieldsOf?, hfields, Option.bind_eq_bind, Option.bind_some]
    split
    · exact ⟨fields, rfl⟩
    · rw [hty]
      exact ⟨_, rfl⟩

/-- An expression of which everything is known has a type. -/
theorem exists_typeOf? {e : Expr} (h : e.Known scope) : ∃ ty, e.typeOf? scope = some ty := by
  induction e using induct with
  | scalar kind span => exact ⟨.scalar kind, rfl⟩
  | dict entries span ih =>
    obtain ⟨fields, hfields⟩ := exists_fieldsOf? fun entry hentry =>
      ih entry hentry (known_dict_iff.mp h entry hentry)
    exact ⟨.record none fields, by rw [typeOf?, hfields]; rfl⟩
  | call callee args span _ =>
    obtain ⟨⟨signature, hsignature⟩, _⟩ := known_call_iff.mp h
    exact ⟨signature.returns, by rw [typeOf?, hsignature]; rfl⟩
  | name ident => exact known_name_iff.mp h

/-- The fields of the later entries, and before them one for the key unless they have it. -/
theorem cases_of_fieldsOf?_cons {first : Entry Expr} {rest : List (Entry Expr)}
    {fields : List (Field Ty)} (h : fieldsOf? scope (first :: rest) = some fields) :
    ∃ later, fieldsOf? scope rest = some later ∧
      ((∃ field, fieldNamed? later first.key = some field) ∧ fields = later ∨
        fieldNamed? later first.key = none ∧
          ∃ ty, first.value.typeOf? scope = some ty ∧ fields = ⟨first.key, ty, true⟩ :: later) := by
  rw [fieldsOf?] at h
  obtain ⟨later, hlater, h⟩ := Option.bind_eq_some_iff.mp h
  refine ⟨later, hlater, ?_⟩
  cases hfound : fieldNamed? later first.key with
  | some field =>
    rw [hfound, Option.isSome_some, if_pos rfl] at h
    exact Or.inl ⟨⟨field, rfl⟩, (Option.some.inj h).symm⟩
  | none =>
    rw [hfound, Option.isSome_none, if_neg (by simp)] at h
    obtain ⟨ty, hty, h⟩ := Option.bind_eq_some_iff.mp h
    exact Or.inr ⟨rfl, ty, hty, (Option.some.inj h).symm⟩

/-- The fields of a dict literal have each key that occurs, with the type of the entry that counts
for it, and no other name. -/
theorem fieldNamed?_of_fieldsOf? {entries : List (Entry Expr)} {fields : List (Field Ty)}
    (h : fieldsOf? scope entries = some fields) (key : String) :
    (∀ entry, entryOf? entries key = some entry → ∃ ty, entry.value.typeOf? scope = some ty ∧
      fieldNamed? fields key = some ⟨key, ty, true⟩) ∧
    (entryOf? entries key = none → fieldNamed? fields key = none) := by
  induction entries generalizing fields with
  | nil =>
    cases h
    exact ⟨fun entry hentry => absurd hentry (by simp [entryOf?]), fun _ => rfl⟩
  | cons first rest ih =>
    obtain ⟨later, hlater, hfields⟩ := cases_of_fieldsOf?_cons h
    obtain ⟨hcounted, habsent⟩ := ih hlater
    rw [entryOf?_cons]
    cases hrest : entryOf? rest key with
    | some entry =>
      -- A later entry counts, and what the first one adds has another name.
      obtain ⟨ty, hty, hfound⟩ := hcounted entry hrest
      refine ⟨fun entry' hentry' => ?_, fun hnone => absurd hnone (by simp)⟩
      obtain rfl : entry = entry' := by simpa using hentry'
      refine ⟨ty, hty, ?_⟩
      rcases hfields with ⟨_, rfl⟩ | ⟨hnew, _, _, rfl⟩
      · exact hfound
      · have hne : first.key ≠ key := fun heq => by
          rw [heq, hfound] at hnew
          exact absurd hnew (by simp)
        rw [fieldNamed?, List.find?_cons_of_neg (by simpa using hne)]
        exact hfound
    | none =>
      have hlast := habsent hrest
      by_cases hkey : first.key = key
      · subst hkey
        rw [if_pos rfl, Option.none_or]
        refine ⟨fun entry hentry => ?_, fun hnone => absurd hnone (by simp)⟩
        obtain rfl := Option.some.inj hentry
        rcases hfields with ⟨⟨_, hfound⟩, _⟩ | ⟨_, ty, hty, rfl⟩
        · rw [hlast] at hfound
          exact absurd hfound (by simp)
        · exact ⟨ty, hty, by simp [fieldNamed?]⟩
      · rw [if_neg hkey, Option.none_or]
        refine ⟨fun entry hentry => absurd hentry (by simp), fun _ => ?_⟩
        rcases hfields with ⟨_, rfl⟩ | ⟨_, _, _, rfl⟩
        · exact hlast
        · rw [fieldNamed?, List.find?_cons_of_neg (by simpa using hkey)]
          exact hlast

/-! ## Where a literal may have no more -/

/-- A record is expected of a dict literal somewhere in an expression: the two are met by descending
the expected type and the expression together, from a field to the entry that counts for it. -/
inductive Meets : Ty → Expr → List (Field Ty) → List (Entry Expr) → Prop
  | here {name : Option String} {fields : List (Field Ty)} {entries : List (Entry Expr)}
      {span : Span} : Meets (.record name fields) (.dict entries span) fields entries
  | field {name : Option String} {fields fields' : List (Field Ty)}
      {entries entries' : List (Entry Expr)} {span : Span} {field : Field Ty} {entry : Entry Expr}
      (hfield : field ∈ fields) (hcounts : Counts entries field.name entry)
      (h : Meets field.ty entry.value fields' entries') :
      Meets (.record name fields) (.dict entries span) fields' entries'

/-- Where a record is expected of a dict literal, every entry is one of a field. -/
def NoExtra (expected : Ty) (e : Expr) : Prop :=
  ∀ fields entries, Meets expected e fields entries →
    ∀ entry ∈ entries, ∃ field ∈ fields, field.name = entry.key

theorem noExtra_dict_iff {name : Option String} {fields : List (Field Ty)}
    {entries : List (Entry Expr)} {span : Span} :
    NoExtra (.record name fields) (.dict entries span) ↔
      (∀ entry ∈ entries, ∃ field ∈ fields, field.name = entry.key) ∧
      ∀ field ∈ fields, ∀ entry, Counts entries field.name entry →
        NoExtra field.ty entry.value := by
  refine ⟨fun h => ⟨h fields entries .here, ?_⟩, fun h => ?_⟩
  · intro field hfield entry hcounts fields' entries' hmeets
    exact h fields' entries' (.field hfield hcounts hmeets)
  · intro fields' entries' hmeets
    cases hmeets with
    | here => exact h.1
    | field hfield hcounts hmeets => exact h.2 _ hfield _ hcounts fields' entries' hmeets

/-! ## The two searches -/

/-- Without a dict literal there is nothing to have more. -/
theorem noExtra_of_not_dict {expected : Ty} {e : Expr}
    (h : ∀ entries span, e ≠ .dict entries span) : NoExtra expected e := by
  intro _ _ hmeets
  cases hmeets with
  | here => exact absurd rfl (h _ _)
  | field => exact absurd rfl (h _ _)

/-- What an expected field asks of the entries is what it asks of their fields, each of which is
required, if that is so of the entry that counts for it. -/
theorem field_accepted_iff {entries : List (Entry Expr)} {fields : List (Field Ty)}
    (hfields : fieldsOf? scope entries = some fields) (field : Field Ty)
    (hvalue : ∀ entry ∈ entries, ∀ ty, entry.value.typeOf? scope = some ty →
      (field.ty.valueMismatch? w scope entry.value = none ↔
        field.ty.mismatch? w ty = none ∧ NoExtra field.ty entry.value)) :
    ((field.required = true → ∃ entry ∈ entries, entry.key = field.name) ∧
      ∀ entry, Counts entries field.name entry →
        field.ty.valueMismatch? w scope entry.value = none) ↔
    (field.required = true →
      ∃ other, fieldNamed? fields field.name = some other ∧ other.required = true) ∧
    (∀ other, fieldNamed? fields field.name = some other →
      field.ty.mismatch? w other.ty = none) ∧
    ∀ entry, Counts entries field.name entry → NoExtra field.ty entry.value := by
  obtain ⟨hcounted, habsent⟩ := fieldNamed?_of_fieldsOf? hfields field.name
  rw [← exists_counts_iff]
  simp only [← entryOf?_eq_some_iff]
  cases hfound : entryOf? entries field.name with
  | none =>
    rw [habsent hfound]
    simp
  | some entry =>
    obtain ⟨ty, hty, hnamed⟩ := hcounted entry hfound
    have hmem := (entryOf?_eq_some_iff.mp hfound).mem.1
    rw [hnamed]
    simp [hvalue entry hmem ty hty]

/-- A value is accepted exactly if its type is and it has no entries but those of fields. -/
theorem accepted_iff_of_typeOf? {e : Expr} {ty : Ty} (hty : e.typeOf? scope = some ty)
    (expected : Ty) :
    expected.valueMismatch? w scope e = none ↔
      expected.mismatch? w ty = none ∧ NoExtra expected e := by
  induction e using induct generalizing ty expected with
  | scalar kind span =>
    obtain rfl := Option.some.inj hty
    have hextra : NoExtra expected (scalar kind span) := noExtra_of_not_dict (by simp)
    cases expected with
    | scalar expected => rw [Ty.valueMismatch?, Ty.mismatch?_scalar, and_iff_left hextra]
    | record _ _ => simp [Ty.valueMismatch?, Ty.mismatch?]
    | callable _ _ => simp [Ty.valueMismatch?, Ty.mismatch?]
  | dict entries span ih =>
    obtain ⟨fields, hfields, rfl⟩ := Option.map_eq_some_iff.mp hty
    cases expected with
    | scalar _ => simp [Ty.valueMismatch?, Ty.mismatch?]
    | record name expected =>
      have hfield := fun field : Field Ty => field_accepted_iff hfields field
        fun entry hmem ty hentry => ih entry hmem hentry field.ty
      rw [dictMismatch?_eq_none_iff, Ty.mismatch?_record_eq_none_iff, noExtra_dict_iff]
      refine ⟨fun h => ?_, fun h => ?_⟩
      · obtain ⟨hall, hextra⟩ := h
        have hall' := fun field hmem => (hfield field).mp (hall field hmem)
        exact ⟨⟨fun field hmem => (hall' field hmem).1, fun field hmem => (hall' field hmem).2.1⟩,
          hextra, fun field hmem => (hall' field hmem).2.2⟩
      · obtain ⟨⟨hrequired, hshared⟩, hextra, hinner⟩ := h
        refine ⟨fun field hmem => (hfield field).mpr ?_, hextra⟩
        exact ⟨hrequired field hmem, hshared field hmem, hinner field hmem⟩
    | callable _ _ => simp [Ty.valueMismatch?, Ty.mismatch?]
  | call callee args span _ =>
    obtain ⟨signature, hsignature, rfl⟩ := Option.map_eq_some_iff.mp hty
    have hextra : NoExtra expected (call callee args span) := noExtra_of_not_dict (by simp)
    rw [Ty.valueMismatch?, hsignature, Option.bind_some, and_iff_left hextra]
  | name ident =>
    have hextra : NoExtra expected (name ident) := noExtra_of_not_dict (by simp)
    rw [typeOf?] at hty
    rw [Ty.valueMismatch?, hty, Option.bind_some, and_iff_left hextra]

/-- A value of which everything is known has a type, and it is accepted exactly if that type is and
no dict literal in it has an entry that is one of no field. -/
theorem accepted_iff_typeOf?_accepted (w : Widening) {e : Expr} (h : e.Known scope)
    (expected : Ty) :
    ∃ ty, e.typeOf? scope = some ty ∧
      (expected.valueMismatch? w scope e = none ↔
        expected.mismatch? w ty = none ∧ NoExtra expected e) := by
  obtain ⟨ty, hty⟩ := exists_typeOf? h
  exact ⟨ty, hty, accepted_iff_of_typeOf? hty expected⟩

/-- A scope with a variable `x` and a function `f`. -/
def variableAndFunction : Scope :=
  (Scope.empty.bind "x" (.typed (.scalar .int))).declareFunction "f" ⟨[], .scalar .str⟩ ⟨0, 1⟩

/-- A literal with a key that occurs twice and another literal inside. -/
def nestedLiteral : Expr :=
  .dict [⟨"a", .scalar .str ⟨0, 1⟩, ⟨0, 1⟩⟩, ⟨"a", .name ⟨"x", ⟨1, 2⟩⟩, ⟨1, 2⟩⟩,
    ⟨"b", .dict [⟨"c", .call ⟨"f", ⟨2, 3⟩⟩ [] ⟨2, 3⟩, ⟨2, 3⟩⟩] ⟨2, 3⟩, ⟨2, 3⟩⟩] ⟨0, 3⟩

theorem known_nestedLiteral : nestedLiteral.Known variableAndFunction := by
  have hx : (name ⟨"x", ⟨1, 2⟩⟩).Known variableAndFunction :=
    known_name_iff.mpr ⟨.scalar .int, rfl⟩
  have hf : (call ⟨"f", ⟨2, 3⟩⟩ [] ⟨2, 3⟩).Known variableAndFunction :=
    known_call_iff.mpr ⟨⟨⟨[], .scalar .str⟩, rfl⟩, List.forall_mem_nil _⟩
  simp only [nestedLiteral, known_dict_iff, List.forall_mem_cons]
  exact ⟨known_scalar _ _, hx, ⟨hf, List.forall_mem_nil _⟩, List.forall_mem_nil _⟩

/-- A record whose field `b` has no field `c`. -/
def shallowRecord : Ty :=
  .record none [⟨"a", .scalar .int, true⟩, ⟨"b", .record none [], true⟩]

/-- The type of the literal is accepted for the record. The literal is not, and so it has to have an
entry that is one of no field. -/
theorem accepted_iff_typeOf?_accepted_nestedLiteral :
    nestedLiteral.Known variableAndFunction ∧
      nestedLiteral.typeOf? variableAndFunction = some (.record none
        [⟨"a", .scalar .int, true⟩, ⟨"b", .record none [⟨"c", .scalar .str, true⟩], true⟩]) ∧
      shallowRecord.valueMismatch? .empty variableAndFunction nestedLiteral =
        some ⟨.extraKey "c", [.field "b", .field "c"]⟩ ∧
      ¬ NoExtra shallowRecord nestedLiteral := by
  have htype : nestedLiteral.typeOf? variableAndFunction = some (.record none
      [⟨"a", .scalar .int, true⟩, ⟨"b", .record none [⟨"c", .scalar .str, true⟩], true⟩]) := by
    decide +kernel
  have hrefused : shallowRecord.valueMismatch? .empty variableAndFunction nestedLiteral =
      some ⟨.extraKey "c", [.field "b", .field "c"]⟩ := by
    decide +kernel
  refine ⟨known_nestedLiteral, htype, hrefused, fun hextra => ?_⟩
  obtain ⟨ty, hty, hiff⟩ :=
    accepted_iff_typeOf?_accepted .empty known_nestedLiteral shallowRecord
  obtain rfl := Option.some.inj (htype.symm.trans hty)
  have haccepted := hiff.mpr ⟨by decide +kernel, hextra⟩
  rw [hrefused] at haccepted
  exact absurd haccepted (by simp)

end Expr

end Conform
