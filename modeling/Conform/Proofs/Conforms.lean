import Conform.Proofs.Assignable
import Conform.Proofs.Expr
import Mathlib.Data.List.Find

/-!
# Which expressions are accepted

A `Context` says what names mean at a point of a module, as relations and not as tables; a scope
`Fits` it if its lookups answer accordingly. `Conforms` then says which expressions are accepted
where a type is expected, one rule for each form of expression.

A name of which nothing is known, and a call of one, is accepted anywhere: the rules for both ask
only of the types that the name does have. Whether it means anything at all is another question,
which `Proofs/Usage.lean` asks.

The last entry of a dict literal with a key is the one that counts (`Counts`), as where the literal
is evaluated. Earlier ones with the same key need no type of their own.
-/

namespace Conform

/-! ## What names mean -/

/-- What names mean at a point of a module. -/
structure Context where
  /-- What is known of the variables in scope. -/
  Variable : String → Binding → Prop
  /-- The signatures of the functions in scope. -/
  Function : String → Signature → Prop
  /-- The names that are declared as records or functions. -/
  Declared : String → Prop

namespace Context

variable (Γ : Context) (name : String)

/-- The type of a name used as a value: a variable is found before a function. -/
def Value (ty : Ty) : Prop :=
  Γ.Variable name (.typed ty) ∨
    (∀ binding, ¬ Γ.Variable name binding) ∧ ∃ signature, Γ.Function name signature ∧
      signature.ty = ty

/-- How a name is called. -/
def Callable (signature : Signature) : Prop :=
  (∃ ty, Γ.Variable name (.typed ty) ∧ ty.signature? = some signature) ∨
    (∀ binding, ¬ Γ.Variable name binding) ∧ Γ.Function name signature

/-- A name means something. -/
def Bound : Prop :=
  (∃ binding, Γ.Variable name binding) ∨ Γ.Declared name

end Context

/-- The lookups in a scope answer as a context says. -/
structure Scope.Fits (scope : Scope) (Γ : Context) : Prop where
  local? : ∀ name binding, scope.local? name = some binding ↔ Γ.Variable name binding
  function? : ∀ name signature,
    (scope.function? name).map Declared.value = some signature ↔ Γ.Function name signature
  declared : ∀ name, ((scope.function? name).isSome || (scope.record? name).isSome ||
    scope.isPoisoned name) = true ↔ Γ.Declared name

/-- What the names in a scope mean. -/
def Scope.context (scope : Scope) : Context where
  Variable name binding := scope.local? name = some binding
  Function name signature := (scope.function? name).map Declared.value = some signature
  Declared name := ((scope.function? name).isSome || (scope.record? name).isSome ||
    scope.isPoisoned name) = true

/-- Every scope fits what its own lookups say. -/
theorem Scope.fits_context (scope : Scope) : scope.Fits scope.context where
  local? := fun _ _ => Iff.rfl
  function? := fun _ _ => Iff.rfl
  declared := fun _ => Iff.rfl

namespace Scope.Fits

variable {scope : Scope} {Γ : Context} {name : String}

theorem local?_eq_none_iff (h : scope.Fits Γ) :
    scope.local? name = none ↔ ∀ binding, ¬ Γ.Variable name binding := by
  rw [Option.eq_none_iff_forall_ne_some]
  exact forall_congr' fun binding => not_congr (h.local? name binding)

theorem isBound_iff (h : scope.Fits Γ) : scope.isBound name = true ↔ Γ.Bound name := by
  unfold Scope.isBound Context.Bound
  rw [← h.declared, Bool.or_assoc, Bool.or_assoc, Bool.or_eq_true, Option.isSome_iff_exists,
    Bool.or_assoc]
  exact or_congr (exists_congr fun binding => h.local? name binding) Iff.rfl

theorem valueType?_iff (h : scope.Fits Γ) {ty : Ty} :
    scope.valueType? name = some ty ↔ Γ.Value name ty := by
  unfold Scope.valueType? Context.Value
  rw [← h.local?_eq_none_iff, ← h.local? name (.typed ty)]
  simp only [← h.function? name]
  cases scope.local? name with
  | none => cases scope.function? name <;> simp
  | some binding => cases binding <;> simp [Binding.ty?]

theorem callable?_iff (h : scope.Fits Γ) {signature : Signature} :
    scope.callable? name = some signature ↔ Γ.Callable name signature := by
  unfold Scope.callable? Context.Callable
  rw [← h.local?_eq_none_iff]
  simp only [← h.function? name, ← h.local? name]
  cases scope.local? name with
  | none => cases scope.function? name <;> simp
  | some binding => cases binding <;> simp [Binding.ty?]

end Scope.Fits

/-! ## Entries of dict literals -/

/-- An entry with a scalar literal, at a place of no interest. -/
def scalarEntry (key : String) (kind : Scalar) : Entry Expr :=
  ⟨key, .scalar kind ⟨0, 1⟩, ⟨0, 1⟩⟩

/-- The entry that counts for a key: it has the key, and none after it does. -/
def Counts (entries : List (Entry Expr)) (key : String) (entry : Entry Expr) : Prop :=
  ∃ before after, entries = before ++ entry :: after ∧ entry.key = key ∧
    ∀ other ∈ after, other.key ≠ key

theorem entryOf?_eq_some_iff {entries : List (Entry Expr)} {key : String} {entry : Entry Expr} :
    entryOf? entries key = some entry ↔ Counts entries key entry := by
  unfold entryOf? Counts
  rw [List.find?_eq_some_iff_append]
  constructor
  · intro h
    obtain ⟨hkey, later, earlier, hsplit, hlater⟩ := h
    refine ⟨earlier.reverse, later.reverse, ?_, by simpa using hkey, fun other hother => ?_⟩
    · rw [← List.reverse_reverse entries, hsplit]
      simp
    · simpa using hlater other (List.mem_reverse.mp hother)
  · intro h
    obtain ⟨before, after, rfl, hkey, hafter⟩ := h
    refine ⟨by simpa using hkey, after.reverse, before.reverse, by simp, fun other hother => ?_⟩
    simpa using hafter other (List.mem_reverse.mp hother)

theorem entryOf?_eq_none_iff {entries : List (Entry Expr)} {key : String} :
    entryOf? entries key = none ↔ ∀ entry ∈ entries, entry.key ≠ key := by
  simp [entryOf?, List.find?_eq_none]

theorem Counts.mem {entries : List (Entry Expr)} {key : String} {entry : Entry Expr}
    (h : Counts entries key entry) : entry ∈ entries ∧ entry.key = key := by
  obtain ⟨before, after, rfl, hkey, _⟩ := h
  exact ⟨by simp, hkey⟩

/-- A key that occurs has an entry that counts. -/
theorem exists_counts_iff {entries : List (Entry Expr)} {key : String} :
    (∃ entry, Counts entries key entry) ↔ ∃ entry ∈ entries, entry.key = key := by
  constructor
  · intro h
    obtain ⟨entry, h⟩ := h
    exact ⟨entry, h.mem⟩
  · intro h
    obtain ⟨entry, hmem, hkey⟩ := h
    cases hfound : entryOf? entries key with
    | none => exact absurd hkey (entryOf?_eq_none_iff.mp hfound entry hmem)
    | some last => exact ⟨last, entryOf?_eq_some_iff.mp hfound⟩

/-- An entry counts for its key if none after it does. -/
theorem entryOf?_cons (first : Entry Expr) (rest : List (Entry Expr)) (key : String) :
    entryOf? (first :: rest) key =
      (entryOf? rest key).or (if first.key = key then some first else none) := by
  rw [entryOf?, entryOf?, List.reverse_cons, List.find?_append]
  by_cases h : first.key = key <;> simp [h]

/-- If entries keep their keys and none with a key is dropped, then what is made of the entry that
counts for the key is what counts for it afterwards. -/
theorem counts_filterMap_iff {f : Entry Expr → Option (Entry Expr)} {entries : List (Entry Expr)}
    {key : String} {made : Entry Expr}
    (hkeys : ∀ entry made, f entry = some made → made.key = entry.key)
    (hkept : ∀ entry, entry.key = key → (f entry).isSome = true) :
    Counts (entries.filterMap f) key made ↔
      ∃ entry, Counts entries key entry ∧ f entry = some made := by
  simp only [← entryOf?_eq_some_iff, entryOf?]
  rw [← List.filterMap_reverse, List.find?_filterMap, ← Option.bind_eq_some_iff]
  congr! 2
  refine List.find?_congr fun entry _ => ?_
  cases hf : f entry with
  | none =>
    have hkey : entry.key ≠ key := fun hkey => by simpa [hf] using hkept entry hkey
    simp [hkey]
  | some made => simp [hkeys entry made hf]

/-! ## Acceptance -/

/-- An expression is accepted where a type is expected. -/
inductive Conforms (w : Widening) (Γ : Context) : Ty → Expr → Prop
  | name {expected : Ty} {ident : Ident}
      (h : ∀ ty, Γ.Value ident.name ty → Assignable w expected ty) :
      Conforms w Γ expected (.name ident)
  | call {expected : Ty} {callee : Ident} {args : List Expr} {span : Span}
      (h : ∀ signature, Γ.Callable callee.name signature →
        Assignable w expected signature.returns) :
      Conforms w Γ expected (.call callee args span)
  | scalar {expected actual : Scalar} {span : Span} (h : w.permits actual expected = true) :
      Conforms w Γ (.scalar expected) (.scalar actual span)
  | dict {name : Option String} {fields : List (Field Ty)} {entries : List (Entry Expr)}
      {span : Span}
      (hrequired : ∀ field ∈ fields, field.required = true →
        ∃ entry ∈ entries, entry.key = field.name)
      (hvalues : ∀ field ∈ fields, ∀ entry, Counts entries field.name entry →
        Conforms w Γ field.ty entry.value)
      (hextra : ∀ entry ∈ entries, ∃ field ∈ fields, field.name = entry.key) :
      Conforms w Γ (.record name fields) (.dict entries span)

variable {w : Widening} {scope : Scope} {Γ : Context}

/-- If entries keep their keys, and those are kept that are ones of a field, then a record accepts
what is made of them if all required fields had entries and it accepts what is made of those that
counted. -/
theorem Conforms.dict_filterMap {f : Entry Expr → Option (Entry Expr)} {name : Option String}
    {fields : List (Field Ty)} {entries : List (Entry Expr)} {span : Span}
    (hkeys : ∀ entry made, f entry = some made → made.key = entry.key)
    (hkept : ∀ entry, (f entry).isSome = true ↔ ∃ field ∈ fields, field.name = entry.key)
    (hrequired : ∀ field ∈ fields, field.required = true →
      ∃ entry ∈ entries, entry.key = field.name)
    (hvalues : ∀ field ∈ fields, ∀ entry, Counts entries field.name entry →
      ∀ made, f entry = some made → Conforms w Γ field.ty made.value) :
    Conforms w Γ (.record name fields) (.dict (entries.filterMap f) span) := by
  apply Conforms.dict
  · intro field hfield hreq
    obtain ⟨entry, hentry, hkey⟩ := hrequired field hfield hreq
    have hsome := (hkept entry).mpr ⟨field, hfield, hkey.symm⟩
    obtain ⟨made, hmade⟩ := Option.isSome_iff_exists.mp hsome
    rw [← hkey, ← hkeys entry made hmade]
    exact ⟨made, List.mem_filterMap.mpr ⟨entry, hentry, hmade⟩, rfl⟩
  · intro field hfield made hcounts
    rw [counts_filterMap_iff hkeys
      fun entry hkey => (hkept entry).mpr ⟨field, hfield, hkey.symm⟩] at hcounts
    obtain ⟨entry, hcounts, hmade⟩ := hcounts
    exact hvalues field hfield entry hcounts made hmade
  · intro made hmem
    obtain ⟨entry, _, hmade⟩ := List.mem_filterMap.mp hmem
    rw [hkeys entry made hmade, ← hkept, hmade]
    rfl

/-- What the search finds against one field of a record, given the entries of a dict literal. -/
def Field.entryMismatch? (w : Widening) (scope : Scope) (entries : List (Entry Expr))
    (field : Field Ty) : Option Mismatch :=
  Option.map (Mismatch.within (.field field.name)) <|
    match entryOf? entries field.name with
    | some entry => field.ty.valueMismatch? w scope entry.value
    | none => if field.required then some (Reason.missingKey field.name).atRoot else none

theorem Field.entryMismatch?_eq_none_iff {entries : List (Entry Expr)} {field : Field Ty} :
    field.entryMismatch? w scope entries = none ↔
      (field.required = true → ∃ entry ∈ entries, entry.key = field.name) ∧
      ∀ entry, Counts entries field.name entry →
        field.ty.valueMismatch? w scope entry.value = none := by
  unfold Field.entryMismatch?
  rw [Option.map_eq_none_iff, ← exists_counts_iff]
  simp only [← entryOf?_eq_some_iff]
  cases entryOf? entries field.name with
  | none => cases field.required <;> simp
  | some entry => simp

theorem fieldsMismatch?_eq_findSome? (fields : List (Field Ty)) (entries : List (Entry Expr)) :
    Ty.fieldsMismatch? w scope fields entries =
      fields.findSome? (Field.entryMismatch? w scope entries) := by
  induction fields with
  | nil => rfl
  | cons field rest ih =>
    have hcons : Ty.fieldsMismatch? w scope (field :: rest) entries =
        (field.entryMismatch? w scope entries).or (Ty.fieldsMismatch? w scope rest entries) := by
      rw [Ty.fieldsMismatch?]
      rfl
    rw [hcons, ih, List.findSome?_cons]
    cases field.entryMismatch? w scope entries <;> rfl

theorem firstExtra?_eq_none_iff {fields : List (Field Ty)} {entries : List (Entry Expr)} :
    firstExtra? fields entries = none ↔
      ∀ entry ∈ entries, ∃ field ∈ fields, field.name = entry.key := by
  simp [firstExtra?, fieldNamed?, List.find?_eq_none]

/-- What a record asks of a dict literal. -/
theorem dictMismatch?_eq_none_iff {name : Option String} {fields : List (Field Ty)}
    {entries : List (Entry Expr)} {span : Span} :
    (Ty.record name fields).valueMismatch? w scope (.dict entries span) = none ↔
      (∀ field ∈ fields,
        (field.required = true → ∃ entry ∈ entries, entry.key = field.name) ∧
        ∀ entry, Counts entries field.name entry →
          field.ty.valueMismatch? w scope entry.value = none) ∧
      ∀ entry ∈ entries, ∃ field ∈ fields, field.name = entry.key := by
  rw [Ty.valueMismatch?, Option.or_eq_none_iff, Option.map_eq_none_iff,
    fieldsMismatch?_eq_findSome?, List.findSome?_eq_none_iff, firstExtra?_eq_none_iff]
  simp only [Field.entryMismatch?_eq_none_iff]

/-- The search finds no reason against an expression exactly if the rules accept it. -/
theorem valueMismatch?_eq_none_iff (hfits : scope.Fits Γ) {expected : Ty} {e : Expr} :
    expected.valueMismatch? w scope e = none ↔ Conforms w Γ expected e := by
  induction e using Expr.induct generalizing expected with
  | scalar actual span =>
    cases expected with
    | scalar kind =>
      rw [Ty.valueMismatch?, Scalar.mismatch?_eq_none_iff]
      constructor
      · intro h
        exact .scalar h
      · intro h
        cases h with
        | scalar h => exact h
    | record _ _ => exact iff_of_false (by simp [Ty.valueMismatch?]) nofun
    | callable _ _ => exact iff_of_false (by simp [Ty.valueMismatch?]) nofun
  | dict entries span ih =>
    cases expected with
    | scalar _ => exact iff_of_false (by simp [Ty.valueMismatch?]) nofun
    | record name fields =>
      rw [dictMismatch?_eq_none_iff]
      -- Only entries that count are judged, and each of them stands in the literal.
      constructor
      · intro h
        obtain ⟨hfields, hextra⟩ := h
        refine .dict (fun field hfield => (hfields field hfield).1) ?_ hextra
        intro field hfield entry hcounts
        exact (ih entry hcounts.mem.1).mp ((hfields field hfield).2 entry hcounts)
      · intro h
        cases h with
        | dict hrequired hvalues hextra =>
          refine ⟨fun field hfield => ⟨hrequired field hfield, ?_⟩, hextra⟩
          intro entry hcounts
          exact (ih entry hcounts.mem.1).mpr (hvalues field hfield entry hcounts)
    | callable _ _ => exact iff_of_false (by simp [Ty.valueMismatch?]) nofun
  | call callee args span _ =>
    rw [Ty.valueMismatch?, Option.bind_eq_none_iff]
    simp only [hfits.callable?_iff, mismatch?_eq_none_iff]
    constructor
    · intro h
      exact .call h
    · intro h
      cases h with
      | call h => exact h
  | name ident =>
    rw [Ty.valueMismatch?, Option.bind_eq_none_iff]
    simp only [hfits.valueType?_iff, mismatch?_eq_none_iff]
    constructor
    · intro h
      exact .name h
    · intro h
      cases h with
      | name h => exact h

end Conform
