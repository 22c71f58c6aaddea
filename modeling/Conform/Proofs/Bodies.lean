import Conform.Proofs.Declarations

/-!
# Function bodies one by one

A body says nothing about what a module declares, and what a body binds is not seen outside of it.
So the check of a module can be taken apart (`check_bodies`): **what is found is what is found with
all of the bodies left out, and what is found with all of them left out but one**, for each function
in turn, redefinitions and poisoned functions among them. The scope is the same every time.

Modules that are equal without their bodies are compared at once
(`mem_diagnostics_of_withoutBodies_eq`): they differ only in the findings in their bodies, and those
are the findings that the same bodies have anywhere else among these modules.
-/

namespace Conform

/-! ## Leaving bodies out -/

/-- An item without the body that it has if it is a function. -/
def Item.bare (item : Item) : Item :=
  item.map FunctionDecl.bare id

theorem Item.bare_bare (item : Item) : item.bare.bare = item.bare := by
  cases item <;> rfl

theorem Item.exists_of_bare_eq {item : Item} {decl : FunctionDecl}
    (h : item.bare = .function decl) : ∃ full : FunctionDecl, decl = full.bare := by
  cases item with
  | function full =>
    cases h
    exact ⟨full, rfl⟩
  | record _ => exact absurd h Item.noConfusion
  | stmt _ => exact absurd h Item.noConfusion

namespace Module

/-- A module without its function bodies. -/
def withoutBodies (m : Module) : Module :=
  m.map FunctionDecl.bare id

/-- A module without the function bodies of other items than the one at `k`. -/
def onlyBody (m : Module) (k : Nat) : Module :=
  ⟨m.items.mapIdx fun i item => if i = k then item else item.bare⟩

theorem withoutBodies_withoutBodies (m : Module) :
    m.withoutBodies.withoutBodies = m.withoutBodies := by
  unfold withoutBodies map
  rw [List.map_map]
  exact congrArg Module.mk (List.map_congr_left fun item _ => item.bare_bare)

theorem withoutBodies_onlyBody (m : Module) (k : Nat) :
    (m.onlyBody k).withoutBodies = m.withoutBodies := by
  unfold onlyBody withoutBodies map
  refine congrArg Module.mk (List.ext_getElem (by simp) fun i h₁ h₂ => ?_)
  rw [List.getElem_map, List.getElem_map, List.getElem_mapIdx]
  split
  · rfl
  · exact Item.bare_bare _

/-! ## What bodies have no part in -/

theorem redefinitions_withoutBodies (m : Module) :
    m.withoutBodies.redefinitions = m.redefinitions :=
  redefinitions_map FunctionDecl.name_bare m

theorem functions_withoutBodies (m : Module) :
    m.withoutBodies.functions = m.functions.map FunctionDecl.bare :=
  functions_map FunctionDecl.name_bare m

theorem statements_withoutBodies (m : Module) : m.withoutBodies.statements = m.statements :=
  m.statements_map.trans (List.map_id _)

theorem assignments_withoutBodies (m : Module) : m.withoutBodies.assignments = m.assignments := by
  rw [assignments_eq, assignments_eq, statements_withoutBodies]

theorem sameDeclarations_withoutBodies (m : Module) : m.SameDeclarations m.withoutBodies := by
  refine .of_map m FunctionDecl.name_bare (fun _ => rfl) ?_
  show m.withoutBodies.variableAssignments = m.variableAssignments
  unfold variableAssignments
  rw [assignments_withoutBodies, withoutBodies, declared_map FunctionDecl.name_bare]

section Equal

variable {m m' : Module} (h : m.withoutBodies = m'.withoutBodies)

include h

theorem sameDeclarations_of_withoutBodies_eq : m.SameDeclarations m' := by
  have hsame := m.sameDeclarations_withoutBodies
  rw [h] at hsame
  exact hsame.trans m'.sameDeclarations_withoutBodies.symm

/-- The references of function declarations that name no record are the same. -/
theorem mem_unknown_of_withoutBodies_eq {records : List RecordDecl} {d : Diagnostic} :
    (∃ decl ∈ m.functions, d ∈ decl.unknown records) ↔
      ∃ decl ∈ m'.functions, d ∈ decl.unknown records := by
  rw [← FunctionDecl.exists_mem_map_bare fun _ => Iff.rfl, ← functions_withoutBodies, h,
    functions_withoutBodies, FunctionDecl.exists_mem_map_bare fun _ => Iff.rfl]

end Equal

/-- Nothing is found in bodies that are empty. -/
theorem not_mem_findings_withoutBodies {m : Module} {w : Widening} {g : Globals} {d : Diagnostic} :
    ¬ ∃ decl ∈ m.withoutBodies.functions, d ∈ decl.findings w g := by
  rw [functions_withoutBodies]
  intro h
  obtain ⟨decl, hmem, hd⟩ := h
  obtain ⟨full, _, rfl⟩ := List.mem_map.mp hmem
  exact absurd hd List.not_mem_nil

/-- Modules that are equal without their bodies differ in the findings in their bodies. -/
theorem mem_diagnostics_of_withoutBodies_eq {m m' : Module}
    (h : m.withoutBodies = m'.withoutBodies) {w : Widening} {d : Diagnostic} :
    d ∈ (check w m').diagnostics ↔ d ∈ (check w m.withoutBodies).diagnostics ∨
      ∃ decl ∈ m'.functions, d ∈ decl.findings w m.globals := by
  have hsame := sameDeclarations_of_withoutBodies_eq h
  have hsame' := m.sameDeclarations_withoutBodies
  have hglobals : d ∈ m'.globals.findings m' ↔
      d ∈ m.withoutBodies.globals.findings m.withoutBodies := by
    rw [hsame.mem_globals_findings_iff, hsame'.mem_globals_findings_iff, h,
      redefinitions_withoutBodies, assignments_withoutBodies,
      mem_unknown_of_withoutBodies_eq m'.withoutBodies_withoutBodies]
  have hstatements : m'.statements = m.withoutBodies.statements := by
    rw [h, statements_withoutBodies]
  rw [mem_diagnostics_iff, mem_diagnostics_iff, hsame.mem_findingsOfItems_iff,
    hsame'.mem_findingsOfItems_iff, hglobals, hstatements,
    or_iff_right not_mem_findings_withoutBodies, or_right_comm, or_assoc]

/-- A module is clean exactly if it is without its bodies and nothing is found in any of them. -/
theorem isClean_iff_of_withoutBodies_eq {m m' : Module} (h : m.withoutBodies = m'.withoutBodies)
    {w : Widening} :
    (check w m').isClean = true ↔ (check w m.withoutBodies).isClean = true ∧
      ∀ decl, .function decl ∈ m'.items → decl.findings w m.globals = [] := by
  simp only [Outcome.isClean, List.isEmpty_iff, List.eq_nil_iff_forall_not_mem,
    mem_diagnostics_of_withoutBodies_eq h, not_or, not_exists, not_and, forall_and,
    mem_functions_iff_mem_items]
  exact and_congr_right fun _ =>
    ⟨fun hnone decl hmem d => hnone d decl hmem, fun hnone d decl hmem => hnone decl hmem d⟩

/-- With another body for one of its functions a module is clean exactly if it is otherwise and
nothing is found in that body. -/
theorem isClean_iff_of_bare_eq {m m' : Module} {before after : List Item}
    {decl decl' : FunctionDecl} (hitems : m.items = before ++ .function decl :: after)
    (hitems' : m'.items = before ++ .function decl' :: after) (hbare : decl'.bare = decl.bare)
    {w : Widening} :
    (check w m').isClean = true ↔
      ((check w m.withoutBodies).isClean = true ∧
        ∀ other, .function other ∈ before ++ after → other.findings w m.globals = []) ∧
      decl'.findings w m.globals = [] := by
  have hbodies : m.withoutBodies = m'.withoutBodies := by
    simp only [withoutBodies, map, hitems, hitems', List.map_append, List.map_cons, Item.map, hbare]
  rw [isClean_iff_of_withoutBodies_eq hbodies, hitems', and_assoc]
  simp only [List.mem_append, List.mem_cons, Item.function.injEq, or_imp, forall_and, forall_eq]
  exact and_congr_right fun _ => (and_congr_right fun _ => and_comm).trans and_assoc.symm

/-! ## One body at a time -/

theorem mem_functions_iff_getElem? {m : Module} {decl : FunctionDecl} :
    decl ∈ m.functions ↔ ∃ k : Nat, m.items[k]? = some (Item.function decl) := by
  rw [← mem_functions_iff_mem_items, List.mem_iff_getElem?]

/-- With one body kept the findings in bodies are those in that one. -/
theorem mem_findings_onlyBody_iff {m : Module} {k : Nat} {w : Widening} {g : Globals}
    {d : Diagnostic} :
    (∃ decl ∈ (m.onlyBody k).functions, d ∈ decl.findings w g) ↔
      ∃ decl, m.items[k]? = some (.function decl) ∧ d ∈ decl.findings w g := by
  simp only [← mem_functions_iff_mem_items]
  constructor
  · intro h
    obtain ⟨decl, hmem, hd⟩ := h
    obtain ⟨i, hi, hitem⟩ := List.mem_mapIdx.mp hmem
    by_cases hk : i = k
    · rw [if_pos hk] at hitem
      subst hk
      exact ⟨decl, by rw [List.getElem?_eq_getElem hi, hitem], hd⟩
    · rw [if_neg hk] at hitem
      obtain ⟨full, rfl⟩ := Item.exists_of_bare_eq hitem
      exact absurd hd List.not_mem_nil
  · intro h
    obtain ⟨decl, hitem, hd⟩ := h
    obtain ⟨hk, hitem⟩ := List.getElem?_eq_some_iff.mp hitem
    exact ⟨decl, List.mem_mapIdx.mpr ⟨k, hk, by rw [if_pos rfl, hitem]⟩, hd⟩

/-- Each body is checked, and by itself. -/
theorem check_bodies (w : Widening) (m : Module) :
    (check w m.withoutBodies).scope = (check w m).scope ∧
    (∀ k, (check w (m.onlyBody k)).scope = (check w m).scope) ∧
    (∀ d, d ∈ (check w m).diagnostics ↔
      d ∈ (check w m.withoutBodies).diagnostics ∨
        ∃ k decl, m.items[k]? = some (.function decl) ∧
          d ∈ (check w (m.onlyBody k)).diagnostics) ∧
    ∀ k d, d ∈ (check w (m.onlyBody k)).diagnostics ↔
      d ∈ (check w m.withoutBodies).diagnostics ∨
        ∃ decl, m.items[k]? = some (.function decl) ∧ d ∈ decl.findings w m.globals := by
  have honly : ∀ k d, d ∈ (check w (m.onlyBody k)).diagnostics ↔
      d ∈ (check w m.withoutBodies).diagnostics ∨
        ∃ decl, m.items[k]? = some (.function decl) ∧ d ∈ decl.findings w m.globals := fun k d => by
    rw [mem_diagnostics_of_withoutBodies_eq (m.withoutBodies_onlyBody k).symm,
      mem_findings_onlyBody_iff]
  refine ⟨m.sameDeclarations_withoutBodies.scope.symm, fun k =>
    (sameDeclarations_of_withoutBodies_eq (m.withoutBodies_onlyBody k)).scope, fun d => ?_, honly⟩
  rw [mem_diagnostics_of_withoutBodies_eq (rfl : m.withoutBodies = m.withoutBodies)]
  simp only [honly, mem_functions_iff_getElem?]
  constructor
  · intro h
    rcases h with h | ⟨decl, ⟨k, hitem⟩, hd⟩
    · exact Or.inl h
    · exact Or.inr ⟨k, decl, hitem, Or.inr ⟨decl, hitem, hd⟩⟩
  · intro h
    rcases h with h | ⟨k, _, _, h | ⟨decl, hitem, hd⟩⟩
    · exact Or.inl h
    · exact Or.inl h
    · exact Or.inr ⟨decl, ⟨k, hitem⟩, hd⟩

end Module

end Conform
