import Conform.Proofs.Correct

/-!
# What is assigned to a global

Function bodies see a global with the type of its first annotation. The statements of the top level
see it as the last annotation before them left it, so an assignment is judged by another type once
the global has been annotated anew: by the type of the annotation that it has or keeps. Nothing
compares the two types (`check_annotatedAnew`). As long as the annotations agree, every value that
is assigned conforms to the type that the bodies see (`assigned_conforms`).
-/

namespace Conform.Module

variable {w : Widening} {m : Module} {before after : List Stmt} {a : Assignment} {T : Ty}

/-- A global that has a type has one after any statements: that of the last annotation in them or
else the one that it has. -/
theorem WellDeclared.exists_typed_after (h : m.WellDeclared) {stmts rest : List Stmt}
    (hsplit : m.statements = stmts ++ rest) {name : String}
    (hglobal : m.context.Variable name (.typed T)) :
    ∃ U, VariableAfter m.RecordTypes m.context.Variable stmts name (.typed U) := by
  have hdenoted : Denoted m.RecordTypes stmts := by
    intro b form hb hform
    exact h.denotes (.assignment (by rw [hsplit]; exact List.mem_append_left _ hb) hform)
  by_contra hnone
  -- Some binding it has at least, for else the global would not be known to begin with.
  have hsome : ∃ binding, VariableAfter m.RecordTypes m.context.Variable stmts name binding := by
    by_contra hunknown
    have hnew := (not_assigned_of_unknown hdenoted fun other hother => hunknown ⟨other, hother⟩).2
    exact hnew _ hglobal
  obtain ⟨binding, hbinding⟩ := hsome
  cases hbinding with
  | annotated hb hty hlast => exact hnone ⟨_, .annotated hb hty hlast⟩
  | kept hplain _ => exact hnone ⟨T, .kept hplain hglobal⟩
  | plain _ _ _ hnew => exact hnew _ hglobal

/-- In a clean module a value that is assigned at the top level conforms to the type that its
target has once it is assigned. -/
theorem conforms_of_clean (hclean : (check w m).isClean = true)
    (hsplit : m.statements = before ++ .assign a :: after) {U : Ty}
    (hU : VariableAfter m.RecordTypes m.context.Variable (before ++ [.assign a]) a.target.name
      (.typed U)) :
    U.valueMismatch? w (scopeAfter m.globals .topLevel m.globals.scope.push before) a.value =
      none := by
  obtain ⟨hglobals, hitems⟩ := isClean_iff.mp hclean
  have h := wellDeclared_of_clean hglobals hitems
  have hfits := h.fits_topLevel hsplit
  have hmem : .assign a ∈ m.statements := by rw [hsplit]; simp
  have hredef : a.isRedefinition m.globals .topLevel = false := h.declares_eq_false hmem
  have hdenoted : Denoted m.RecordTypes (before ++ [.assign a]) := by
    intro b form hb hform
    refine h.denotes (.assignment ?_ hform)
    rw [hsplit, List.append_cons]
    exact List.mem_append_left _ hb
  have hbinding := (bindingIn_iff h.knows hfits.local? hdenoted).mpr hU
  obtain ⟨_, htop⟩ := findingsOfItems_eq_nil_iff.mp hitems
  have hstmt := findingsOfBody_eq_nil_iff.mp htop before (.assign a) after hsplit
  rw [Stmt.findings, if_neg (by simp [hredef]), List.append_eq_nil_iff, hbinding] at hstmt
  have hvalue := ((Expr.findingsIn_eq_nil_iff hfits).mp hstmt.2).2 U rfl
  exact (valueMismatch?_eq_none_iff hfits).mpr hvalue

/-- In a clean module every value that is assigned to a global with a type conforms to the type of
the annotation that the global then has: the last one up to the assignment, or the one that the
bodies see if there is none. So it conforms to the latter as long as no annotation differs. -/
theorem assigned_conforms (hclean : (check w m).isClean = true)
    (hsplit : m.statements = before ++ .assign a :: after)
    (hglobal : (check w m).scope.local? a.target.name = some (.typed T)) :
    (∃ U, VariableAfter m.RecordTypes m.context.Variable (before ++ [.assign a]) a.target.name
        (.typed U) ∧
      U.valueMismatch? w (scopeAfter m.globals .topLevel m.globals.scope.push before) a.value =
        none) ∧
    ((∀ b form, .assign b ∈ before ++ [.assign a] → b.target.name = a.target.name →
        b.form = some form → form.Denotes m.RecordTypes T) →
      T.valueMismatch? w (scopeAfter m.globals .topLevel m.globals.scope.push before) a.value =
        none) := by
  obtain ⟨hglobals, hitems⟩ := isClean_iff.mp hclean
  have h := wellDeclared_of_clean hglobals hitems
  have hvariable : m.context.Variable a.target.name (.typed T) :=
    ((fits_globals h.distinct).local? _ _).mp hglobal
  have hsplit' : m.statements = (before ++ [.assign a]) ++ after := by rw [hsplit]; simp
  obtain ⟨U, hU⟩ := h.exists_typed_after hsplit' hvariable
  refine ⟨⟨U, hU, conforms_of_clean hclean hsplit hU⟩, fun hagree => ?_⟩
  suffices hT : U = T by
    subst hT
    exact conforms_of_clean hclean hsplit hU
  cases hU with
  | @annotated earlier later b _ hb hty _ =>
    obtain ⟨hname, form, hform, hU⟩ := hty
    have hT := hagree b form (by rw [hb]; simp) hname hform
    rw [← TyForm.denote?_iff h.knows] at hU hT
    exact Option.some.inj (hU.symm.trans hT)
  | kept _ hkept =>
    have hfits := fits_globals h.distinct
    rw [← hfits.local?] at hkept hvariable
    exact Binding.typed.inj (Option.some.inj (hkept.symm.trans hvariable))

/-- An assignment with a scalar annotation, if any, that starts at the given offset. -/
def scalarAssignment (start : UInt64) (name : String) (kind? : Option Scalar) (value : Expr) :
    Assignment :=
  let here : Span := ⟨start, start + 1⟩
  ⟨⟨name, here⟩, kind?.map fun kind => .named ⟨kind.keyword, here⟩, value, here⟩

/-- A global that is annotated twice with the same type and assigned once more. -/
def annotatedTwice : Module :=
  ⟨[.stmt (.assign (scalarAssignment 0 "x" (some .int) (.scalar .int ⟨1, 2⟩))),
    .stmt (.assign (scalarAssignment 2 "x" (some .int) (.scalar .int ⟨3, 4⟩))),
    .stmt (.assign (scalarAssignment 4 "x" none (.scalar .int ⟨5, 6⟩)))]⟩

theorem assigned_conforms_annotatedTwice :
    (check .empty annotatedTwice).isClean = true ∧
      (check .empty annotatedTwice).scope.local? "x" = some (.typed (.scalar .int)) ∧
      (Ty.scalar .int).valueMismatch? .empty
        (scopeAfter annotatedTwice.globals .topLevel annotatedTwice.globals.scope.push
          (annotatedTwice.statements.take 2)) (.scalar .int ⟨5, 6⟩) = none := by
  have hclean : (check .empty annotatedTwice).isClean = true := by decide +kernel
  have hglobal : (check .empty annotatedTwice).scope.local? "x" =
      some (.typed (.scalar .int)) := by decide +kernel
  have hsplit : annotatedTwice.statements = annotatedTwice.statements.take 2 ++
      .assign (scalarAssignment 4 "x" none (.scalar .int ⟨5, 6⟩)) :: [] := rfl
  obtain ⟨_, hagree⟩ := assigned_conforms hclean hsplit hglobal
  refine ⟨hclean, hglobal, hagree fun b form hb _ hform => ?_⟩
  have hall : Stmt.assign b ∈ annotatedTwice.statements := hb
  simp only [statements, annotatedTwice, List.filterMap_cons, Item.stmt?, List.filterMap_nil,
    List.mem_cons, Stmt.assign.injEq, List.not_mem_nil, or_false] at hall
  rcases hall with rfl | rfl | rfl
  · cases hform
    exact .keyword rfl
  · cases hform
    exact .keyword rfl
  · cases hform

/-- A global that is annotated anew, with a value of which nothing is known, and assigned once more
as the new annotation has it. -/
def annotatedAnew : Module :=
  ⟨[.stmt (.assign (scalarAssignment 0 "y" none (.scalar .int ⟨1, 2⟩))),
    .stmt (.assign (scalarAssignment 2 "x" (some .int) (.scalar .int ⟨3, 4⟩))),
    .stmt (.assign (scalarAssignment 4 "x" (some .str) (.name ⟨"y", ⟨5, 6⟩⟩))),
    .stmt (.assign (scalarAssignment 6 "x" none (.scalar .str ⟨7, 8⟩)))]⟩

/-- Nothing is found, although the last value does not conform to the type that bodies see. -/
theorem check_annotatedAnew :
    (check .empty annotatedAnew).isClean = true ∧
      (check .empty annotatedAnew).scope.local? "x" = some (.typed (.scalar .int)) ∧
      annotatedAnew.statements = annotatedAnew.statements.take 3 ++
        .assign (scalarAssignment 6 "x" none (.scalar .str ⟨7, 8⟩)) :: [] ∧
      (Ty.scalar .int).valueMismatch? .empty
        (scopeAfter annotatedAnew.globals .topLevel annotatedAnew.globals.scope.push
          (annotatedAnew.statements.take 3)) (.scalar .str ⟨7, 8⟩) ≠ none := by
  refine ⟨?_, ?_, rfl, ?_⟩
  · decide +kernel
  · decide +kernel
  · decide +kernel

end Conform.Module
