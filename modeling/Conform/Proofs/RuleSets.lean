import Conform.Proofs.Alike
import Conform.Proofs.Assignable

/-!
# Rules as a set

A table of widening rules is filled by one rule after another. Of such a sequence of rules it keeps
only which rules between different kinds occur in it (`Widening.ofList_rules`): that is what the
table admits beyond identity, a rule is neither turned around nor chained with others, and the table
is empty exactly if every rule was between a kind and itself.

A check sees a table only through what the table admits, so two sequences with the same rules give
the same outcome, the same findings in the same order with the same reasons. This is not
monotonicity in both directions, which would leave the reasons open: every step of the search, in
types, in values and in calls, asks the table the same questions and goes on in the same way
(`Widening.Agrees`).
-/

namespace Conform

namespace Widening

variable {w w' : Widening}

/-! ## What a table holds -/

theorem permits_empty {actual expected : Scalar} :
    empty.permits actual expected = true ↔ actual = expected := by
  simp [permits, empty]

/-- Only a rule between different kinds is stored. -/
theorem isEmpty_insert {source target : Scalar} :
    (w.insert source target).isEmpty = true ↔ w.isEmpty = true ∧ source = target := by
  unfold insert isEmpty
  rw [List.isEmpty_iff, List.isEmpty_iff]
  by_cases hsame : source = target
  · simp [hsame]
  · by_cases hmem : (source, target) ∈ w.rules
    · have hne : w.rules ≠ [] := List.ne_nil_of_mem hmem
      simp [hmem, hne]
    · simp [hsame, hmem]

/-- After some more rules, the table admits what it has admitted and what they state. -/
theorem permits_foldl_insert {rules : List (Scalar × Scalar)} {actual expected : Scalar} :
    (rules.foldl (fun w rule => w.insert rule.1 rule.2) w).permits actual expected = true ↔
      w.permits actual expected = true ∨ (actual, expected) ∈ rules := by
  induction rules generalizing w with
  | nil => simp
  | cons rule rest ih =>
    rw [List.foldl_cons, ih, permits_insert, List.mem_cons, Prod.ext_iff, or_assoc]

theorem isEmpty_foldl_insert {rules : List (Scalar × Scalar)} :
    (rules.foldl (fun w rule => w.insert rule.1 rule.2) w).isEmpty = true ↔
      w.isEmpty = true ∧ ∀ rule ∈ rules, rule.1 = rule.2 := by
  induction rules generalizing w with
  | nil => simp
  | cons rule rest ih =>
    rw [List.foldl_cons, ih, isEmpty_insert, List.forall_mem_cons, and_assoc]

theorem permits_ofList {rules : List (Scalar × Scalar)} {actual expected : Scalar} :
    (ofList rules).permits actual expected = true ↔
      actual = expected ∨ (actual, expected) ∈ rules := by
  rw [ofList, permits_foldl_insert, permits_empty]

theorem isEmpty_ofList {rules : List (Scalar × Scalar)} :
    (ofList rules).isEmpty = true ↔ ∀ rule ∈ rules, rule.1 = rule.2 := by
  rw [ofList, isEmpty_foldl_insert]
  exact and_iff_right rfl

/-! ## Checks under tables that admit the same -/

theorem findSome?_congr {α β : Type} {f g : α → Option β} {as : List α}
    (h : ∀ a ∈ as, f a = g a) : as.findSome? f = as.findSome? g := by
  rw [← List.head?_filterMap, ← List.head?_filterMap, List.filterMap_congr h]

/-- Two tables answer every question alike. -/
def Agrees (w w' : Widening) : Prop :=
  ∀ actual expected, w.permits actual expected = w'.permits actual expected

/-- Which rules between different kinds there are is all that matters. -/
theorem agrees_ofList {rules rules' : List (Scalar × Scalar)}
    (h : ∀ rule : Scalar × Scalar, rule.1 ≠ rule.2 → (rule ∈ rules ↔ rule ∈ rules')) :
    (ofList rules).Agrees (ofList rules') := by
  intro actual expected
  rw [Bool.eq_iff_iff, permits_ofList, permits_ofList]
  by_cases hsame : actual = expected
  · exact iff_of_true (Or.inl hsame) (Or.inl hsame)
  · exact or_congr Iff.rfl (h (actual, expected) hsame)

namespace Agrees

variable (h : w.Agrees w')

include h

/-! ### Types and values -/

theorem scalarMismatch? (expected actual : Scalar) :
    expected.mismatch? w actual = expected.mismatch? w' actual := by
  rw [Scalar.mismatch?, Scalar.mismatch?, h]

omit h in
/-- Whatever is asked of a field is asked of its type. -/
theorem fieldMismatch? {field : Field Ty} {actual : List (Field Ty)}
    (h : ∀ other ∈ actual, field.ty.mismatch? w other.ty = field.ty.mismatch? w' other.ty) :
    field.mismatch? w actual = field.mismatch? w' actual := by
  unfold Field.mismatch?
  cases hother : fieldNamed? actual field.name with
  | none => rfl
  | some other =>
    dsimp only
    rw [h other (fieldNamed?_mem hother)]

theorem mismatch? (expected actual : Ty) :
    expected.mismatch? w actual = expected.mismatch? w' actual := by
  induction expected, actual using Ty.induct₂ with
  | scalar expected actual =>
    rw [Ty.mismatch?_scalar, Ty.mismatch?_scalar, h.scalarMismatch?]
  | record m n expected actual ih =>
    rw [Ty.mismatch?_record, Ty.mismatch?_record]
    exact findSome?_congr fun field hfield => fieldMismatch? (ih field hfield)
  | callable expected actual returns returns' ihParams ihReturns =>
    have hparams : ∀ entry ∈ (expected.zip actual).zipIdx,
        (entry.1.2.ty.mismatch? w entry.1.1.ty).map (Mismatch.within (.argument entry.2)) =
          (entry.1.2.ty.mismatch? w' entry.1.1.ty).map (.within (.argument entry.2)) := by
      intro entry hentry
      obtain ⟨hparam, hother⟩ := List.of_mem_zip (List.fst_mem_of_mem_zipIdx hentry)
      rw [ihParams _ hparam _ hother]
    rw [Ty.mismatch?_callable, Ty.mismatch?_callable, findSome?_congr hparams, ihReturns]
  | form expected actual hform =>
    rw [Ty.mismatch?_of_not_sameForm hform, Ty.mismatch?_of_not_sameForm hform]

/-- A value is judged by the type that is known of it, by its kind, or entry by entry. -/
theorem valueMismatch? (scope : Scope) (expected : Ty) (e : Expr) :
    expected.valueMismatch? w scope e = expected.valueMismatch? w' scope e := by
  induction e using Expr.induct generalizing expected with
  | scalar kind span =>
    cases expected with
    | scalar expected => rw [Ty.valueMismatch?, Ty.valueMismatch?, h.scalarMismatch?]
    | record _ _ | callable _ _ => simp only [Ty.valueMismatch?]
  | dict entries span ih =>
    cases expected with
    | scalar _ | callable _ _ => simp only [Ty.valueMismatch?]
    | record name fields =>
      rw [Ty.valueMismatch?, Ty.valueMismatch?,
        fieldsMismatch?_congr (fun entry hentry expected => ih entry hentry expected) fields]
  | call callee args span _ =>
    rw [Ty.valueMismatch?, Ty.valueMismatch?]
    simp only [h.mismatch?]
  | name ident =>
    rw [Ty.valueMismatch?, Ty.valueMismatch?]
    simp only [h.mismatch?]

/-! ### Findings -/

variable (scope : Scope)

theorem callFindings (callee : Ident) (args : List Expr) (span : Span) (context? : Option Ty) :
    Conform.callFindings w scope callee args span context? =
      Conform.callFindings w' scope callee args span context? := by
  simp only [Conform.callFindings, Signature.faults, h.mismatch?, h.valueMismatch?]

theorem findings (e : Expr) : e.findings w scope = e.findings w' scope := by
  induction e using Expr.induct with
  | scalar kind span => rw [Expr.findings, Expr.findings]
  | dict entries span ih =>
    rw [Expr.findings, Expr.findings, Expr.findingsEntries_eq_flatMap,
      Expr.findingsEntries_eq_flatMap]
    exact List.flatMap_congr ih
  | call callee args span ih =>
    rw [Expr.findings, Expr.findings, Expr.findingsAll_eq_flatMap, Expr.findingsAll_eq_flatMap,
      h.callFindings, List.flatMap_congr ih]
  | name ident => rw [Expr.findings, Expr.findings]

theorem findingsIn (expected? : Option Ty) (e : Expr) :
    e.findingsIn w scope expected? = e.findingsIn w' scope expected? := by
  cases expected? with
  | none => exact h.findings scope e
  | some expected =>
    unfold Expr.findingsIn Expr.findingsAt
    dsimp only
    split
    · simp only [Expr.findingsAll_eq_flatMap, h.findings, h.callFindings]
    · rw [h.findings, h.valueMismatch?]

variable (g : Globals) (place : Place)

theorem stmtFindings (stmt : Stmt) :
    stmt.findings w g place scope = stmt.findings w' g place scope := by
  cases stmt with
  | expr value => exact h.findings scope value
  | ret value? span =>
    cases place with
    | topLevel =>
      cases value? with
      | none => rfl
      | some value => exact congrArg _ (h.findings scope value)
    | body returns? => exact h.findingsIn scope returns? _
  | assign a => rw [Stmt.findings, Stmt.findings, h.findings, h.findingsIn]

theorem findingsOfBody (stmts : List Stmt) :
    Conform.findingsOfBody w g place scope stmts =
      Conform.findingsOfBody w' g place scope stmts := by
  induction stmts generalizing scope with
  | nil => rfl
  | cons stmt rest ih =>
    rw [Conform.findingsOfBody, Conform.findingsOfBody, h.stmtFindings, ih]

theorem findingsOfItems (items : List Item) :
    Conform.findingsOfItems w g scope items = Conform.findingsOfItems w' g scope items := by
  induction items generalizing scope with
  | nil => rfl
  | cons item rest ih =>
    cases item with
    | function decl =>
      rw [Conform.findingsOfItems, Conform.findingsOfItems, FunctionDecl.findings,
        FunctionDecl.findings, h.findingsOfBody, ih]
    | record decl => exact ih scope
    | stmt stmt =>
      rw [Conform.findingsOfItems, Conform.findingsOfItems, h.stmtFindings, ih]

omit scope g place in
theorem check (m : Module) : Conform.check w m = Conform.check w' m := by
  rw [Conform.check, Conform.check, Module.findings, Module.findings, h.findingsOfItems]

end Agrees

/-- A table holds the rules that it was given and nothing else, and sequences with the same rules
between different kinds, in whatever order and however often, make every check come out the same. -/
theorem ofList_rules (rules : List (Scalar × Scalar)) :
    (∀ actual expected, (ofList rules).permits actual expected = true ↔
      actual = expected ∨ (actual, expected) ∈ rules) ∧
    ((ofList rules).isEmpty = true ↔ ∀ rule ∈ rules, rule.1 = rule.2) ∧
    ∀ rules', (∀ rule : Scalar × Scalar, rule.1 ≠ rule.2 → (rule ∈ rules ↔ rule ∈ rules')) →
      ∀ m, check (ofList rules) m = check (ofList rules') m :=
  ⟨fun _ _ => permits_ofList, isEmpty_ofList, fun _ h m => (agrees_ofList h).check m⟩

/-- A rule, and one that goes on where it ends. -/
def numericSteps : List (Scalar × Scalar) :=
  [(.bool, .int), (.int, .float)]

/-- The same rules in the other order, one of them twice, and one that states nothing. -/
def numericStepsAgain : List (Scalar × Scalar) :=
  [(.int, .float), (.str, .str), (.bool, .int), (.int, .float)]

/-- A `bool` as the value of an `int` and of a `float`. -/
def boolsForNumbers : Module :=
  ⟨[.stmt (.assign ⟨⟨"n", ⟨0, 1⟩⟩, some (.named ⟨"int", ⟨1, 2⟩⟩), .scalar .bool ⟨2, 3⟩, ⟨0, 3⟩⟩),
    .stmt (.assign ⟨⟨"x", ⟨4, 5⟩⟩, some (.named ⟨"float", ⟨5, 6⟩⟩), .scalar .bool ⟨6, 7⟩, ⟨4, 7⟩⟩)]⟩

/-- The rules are stored in different orders, and under both tables the one assignment is accepted
that a single rule admits. -/
theorem ofList_rules_numericSteps :
    ofList numericSteps ≠ ofList numericStepsAgain ∧
    (∀ rule : Scalar × Scalar, rule.1 ≠ rule.2 →
      (rule ∈ numericSteps ↔ rule ∈ numericStepsAgain)) ∧
    check (ofList numericSteps) boolsForNumbers =
      check (ofList numericStepsAgain) boolsForNumbers ∧
    (check (ofList numericStepsAgain) boolsForNumbers).diagnostics =
      [.mismatch (.scalar .float) "bool" ⟨.incompatible "float" "bool", []⟩ ⟨6, 7⟩] := by
  have hrules : ∀ rule : Scalar × Scalar, rule.1 ≠ rule.2 →
      (rule ∈ numericSteps ↔ rule ∈ numericStepsAgain) := by
    rintro ⟨source, target⟩ hne
    cases source <;> cases target <;> simp_all [numericSteps, numericStepsAgain]
  obtain ⟨_, _, hsame⟩ := ofList_rules numericSteps
  exact ⟨by decide, hrules, hsame numericStepsAgain hrules boolsForNumbers, by decide +kernel⟩

end Widening

end Conform
