import Conform.Proofs.Renaming

/-!
# Variables that lose their types

Types are there to be checked against, so the less is known of the variables of a scope, the less
there is to object to. This takes an argument since an untyped variable does more than silence the
checks of its own uses: it hides a function of its name that calls would otherwise be held against,
a plain assignment to it leaves it untyped, and the statements after that see it so.

A scope is looser than another one if some variables of its frames have no type where they have one
there, and that is all (`Scope.Looser`). Each statement keeps two scopes so (`Scope.Looser.leaves`),
and **where nothing is found in the stricter scope nothing is found in the looser one**
(`Scope.Looser.nothing_more_found`).
-/

namespace Conform

variable {w : Widening}

/-! ## Looser scopes -/

/-- A frame that differs from another one only in that some of its variables have no type. -/
structure Frame.Looser (frame' frame : Frame) : Prop where
  records : ∀ name, frame'.records.get? name = frame.records.get? name
  functions : ∀ name, frame'.functions.get? name = frame.functions.get? name
  poisoned : ∀ name, frame'.poisoned.contains name = frame.poisoned.contains name
  locals : ∀ name,
    Option.Rel Binding.Loosens (frame'.locals.get? name) (frame.locals.get? name)

/-- A scope that differs from another one only in that some variables, in any of its frames, have no
type. -/
def Scope.Looser (s' s : Scope) : Prop :=
  List.Forall₂ Frame.Looser s'.frames s.frames

theorem Frame.Looser.refl (frame : Frame) : frame.Looser frame where
  records _ := rfl
  functions _ := rfl
  poisoned _ := rfl
  locals _ := Binding.rel_loosens_refl _

namespace Scope.Looser

variable {s s' : Scope} (h : s'.Looser s) {g : Globals} {place : Place}

include h

/-- The frames agree in all that is no variable. -/
theorem map_frames_eq {α : Type} (read : Frame → α)
    (hread : ∀ frame' frame : Frame, frame'.Looser frame → read frame' = read frame) :
    s'.frames.map read = s.frames.map read := by
  unfold Scope.Looser at h
  generalize s'.frames = frames', s.frames = frames at h ⊢
  induction h with
  | nil => rfl
  | cons hframe _ ih => rw [List.map_cons, List.map_cons, hread _ _ hframe, ih]

theorem record? (name : String) : s'.record? name = s.record? name := by
  have hframes := h.map_frames_eq (fun frame => frame.records.get? name)
    fun _ _ hframe => hframe.records name
  have hfound := congrArg (List.findSome? id) hframes
  rwa [List.findSome?_map, List.findSome?_map] at hfound

theorem function? (name : String) : s'.function? name = s.function? name := by
  have hframes := h.map_frames_eq (fun frame => frame.functions.get? name)
    fun _ _ hframe => hframe.functions name
  have hfound := congrArg (List.findSome? id) hframes
  rwa [List.findSome?_map, List.findSome?_map] at hfound

theorem isPoisoned (name : String) : s'.isPoisoned name = s.isPoisoned name := by
  have hframes := h.map_frames_eq (fun frame => frame.poisoned.contains name)
    fun _ _ hframe => hframe.poisoned name
  have hany : (s'.frames.map _).any id = (s.frames.map _).any id := congrArg (List.any · id) hframes
  rwa [List.any_map, List.any_map] at hany

/-- The innermost frames that bind a name correspond, so what they say of it does. -/
theorem local? (name : String) :
    Option.Rel Binding.Loosens (s'.local? name) (s.local? name) := by
  unfold Scope.Looser at h
  rw [Scope.local?, Scope.local?]
  generalize s'.frames = frames', s.frames = frames at h ⊢
  induction h with
  | nil => exact .none
  | @cons frame' frame _ _ hframe _ ih =>
    have hlocals := hframe.locals name
    rw [List.findSome?_cons, List.findSome?_cons]
    generalize frame'.locals.get? name = found', frame.locals.get? name = found at hlocals ⊢
    cases hlocals with
    | none => exact ih
    | some hloose => exact .some hloose

theorem push : s'.push.Looser s.push :=
  .cons (.refl .empty) h

theorem bind (name : String) {binding binding' : Binding} (hloose : binding'.Loosens binding) :
    (s'.bind name binding').Looser (s.bind name binding) := by
  cases h with
  | cons hframe houter =>
    refine .cons ⟨hframe.records, hframe.functions, hframe.poisoned, fun other => ?_⟩ houter
    rw [Scope.bind, Scope.bind]
    dsimp only
    rw [Table.get?_insert, Table.get?_insert]
    split
    · exact .some hloose
    · exact hframe.locals other

/-- Every name may still stand where it stands. -/
theorem admits (name : String) : s.context.Admits s'.context name name :=
  Scope.admits_of_loosens (h.local? name) (fun _ => h.function? name) (fun _ => h.record? name)
    fun _ => h.isPoisoned name

/-! ## Expressions -/

theorem conforms {expected : Ty} {e : Expr} (he : Conforms w s.context expected e) :
    Conforms w s'.context expected e := by
  have hrename := he.rename (f := id) fun name _ => h.admits name
  rwa [Expr.rename_eq_self (fun _ _ => id_eq _)] at hrename

theorem wellUsed {e : Expr} (he : e.WellUsed w s.context) : e.WellUsed w s'.context := by
  have hrename := he.rename (f := id) fun name _ => h.admits name
  rwa [Expr.rename_eq_self (fun _ _ => id_eq _)] at hrename

theorem valueMismatch?_eq_none {expected : Ty} {e : Expr}
    (hnil : expected.valueMismatch? w s e = none) : expected.valueMismatch? w s' e = none := by
  rw [valueMismatch?_eq_none_iff s.fits_context] at hnil
  rw [valueMismatch?_eq_none_iff s'.fits_context]
  exact h.conforms hnil

theorem findingsIn_eq_nil {expected? : Option Ty} {e : Expr}
    (hnil : e.findingsIn w s expected? = []) : e.findingsIn w s' expected? = [] := by
  rw [Expr.findingsIn_eq_nil_iff s.fits_context] at hnil
  rw [Expr.findingsIn_eq_nil_iff s'.fits_context]
  exact ⟨h.wellUsed hnil.1, fun ty hty => h.conforms (hnil.2 ty hty)⟩

theorem findings_eq_nil {e : Expr} (hnil : e.findings w s = []) : e.findings w s' = [] :=
  @findingsIn_eq_nil w s s' h none e hnil

/-! ## Statements -/

/-- A plain assignment takes over what is known of its target, which may be nothing by now. -/
theorem bindingIn (a : Assignment) : (a.bindingIn g s').Loosens (a.bindingIn g s) := by
  rw [Assignment.bindingIn, Assignment.bindingIn]
  cases a.form with
  | some form => exact Or.inl rfl
  | none =>
    have hlocal := h.local? a.target.name
    generalize s'.local? a.target.name = found', s.local? a.target.name = found at hlocal
    cases hlocal with
    | none => exact Or.inl rfl
    | some hloose => exact hloose

/-- One statement: if nothing is found in it, nothing is found with fewer types. -/
theorem stmt_findings_eq_nil {stmt : Stmt} (hnil : stmt.findings w g place s = []) :
    stmt.findings w g place s' = [] := by
  cases stmt with
  | expr value => exact h.findings_eq_nil hnil
  | ret value? span =>
    cases place with
    | topLevel => exact absurd hnil (List.cons_ne_nil _ _)
    | body returns? => exact h.findingsIn_eq_nil hnil
  | assign a =>
    rw [Stmt.findings] at hnil ⊢
    split at hnil
    · next hredefines =>
      rw [if_pos hredefines]
      exact h.findings_eq_nil hnil
    · next hplace =>
      obtain ⟨hunknown, hvalue⟩ := List.append_eq_nil_iff.mp hnil
      rw [if_neg hplace, List.append_eq_nil_iff]
      exact ⟨hunknown, Expr.findingsIn_eq_nil_of_loose (h.bindingIn a) (h.findingsIn_eq_nil hvalue)⟩

theorem leaves (stmt : Stmt) : (stmt.leaves g place s').Looser (stmt.leaves g place s) := by
  cases stmt with
  | expr value => exact h
  | ret value? span => exact h
  | assign a =>
    rw [Stmt.leaves, Stmt.leaves]
    split
    · exact h
    · exact h.bind _ (h.bindingIn a)

/-- Statements that follow one another, by induction: each of them leaves a scope that is as strict
and one that is looser. -/
theorem findingsOfBody_eq_nil {stmts : List Stmt} (hnil : findingsOfBody w g place s stmts = []) :
    findingsOfBody w g place s' stmts = [] := by
  induction stmts generalizing s s' with
  | nil => rfl
  | cons stmt rest ih =>
    obtain ⟨hstmt, hrest⟩ := List.append_eq_nil_iff.mp hnil
    exact List.append_eq_nil_iff.mpr ⟨h.stmt_findings_eq_nil hstmt, ih (h.leaves stmt) hrest⟩

end Scope.Looser

/-- What is forgotten of variables adds no findings: none in statements that follow one another, in
any place, and no reason against an expression where a type is expected. -/
theorem Scope.Looser.nothing_more_found (w : Widening) {s s' : Scope} (h : s'.Looser s) :
    (∀ (g : Globals) (place : Place) (stmts : List Stmt),
      findingsOfBody w g place s stmts = [] → findingsOfBody w g place s' stmts = []) ∧
    ∀ (expected : Ty) (e : Expr), expected.valueMismatch? w s e = none →
      expected.valueMismatch? w s' e = none :=
  ⟨fun _ _ _ hnil => h.findingsOfBody_eq_nil hnil, fun _ _ hnil => h.valueMismatch?_eq_none hnil⟩

/-- A scope in a function, where a variable of the top level is a `str` or untyped. -/
def scopeInside (binding : Binding) : Scope :=
  (Scope.empty.bind "x" binding).push

theorem looser_scopeInside (ty : Ty) : (scopeInside .untyped).Looser (scopeInside (.typed ty)) := by
  have hempty : Scope.empty.Looser Scope.empty := .cons (.refl .empty) .nil
  exact (hempty.bind "x" (Or.inr rfl)).push

/-- A value for the variable, which is then returned. -/
def reassigned : List Stmt :=
  [.assign ⟨⟨"x", ⟨0, 1⟩⟩, none, .scalar .str ⟨2, 3⟩, ⟨0, 3⟩⟩,
    .ret (some (.name ⟨"x", ⟨4, 5⟩⟩)) ⟨4, 5⟩]

/-- The plain assignment inherits the type of the outer variable, or that it has none. -/
theorem nothing_more_found_reassigned :
    (scopeInside .untyped).Looser (scopeInside (.typed (.scalar .str))) ∧
      findingsOfBody .empty (⟨[]⟩ : Module).globals (.body (some (.scalar .str)))
        (scopeInside (.typed (.scalar .str))) reassigned = [] ∧
      findingsOfBody .empty (⟨[]⟩ : Module).globals (.body (some (.scalar .str)))
        (scopeInside .untyped) reassigned = [] := by
  have hlooser := looser_scopeInside (.scalar .str)
  have hnil : findingsOfBody .empty (⟨[]⟩ : Module).globals (.body (some (.scalar .str)))
      (scopeInside (.typed (.scalar .str))) reassigned = [] := by
    decide +kernel
  exact ⟨hlooser, hnil, (hlooser.nothing_more_found .empty).1 _ _ _ hnil⟩

end Conform
