import Conform.Proofs.Declarations

/-!
# The first definition stays in force

A name that is taken can be declared again and can be assigned to, and neither has an effect on
what the name means (`check_first_definition`). The module is compared with two in which these do
not happen, and both times **the scope is the same**:

* `withoutRedefinitions` leaves out the records and functions whose names are taken. What is no
  longer found is that they are redefinitions, and what is wrong in the annotations and the bodies
  of functions among them, which are checked although they declare nothing.
* `withoutRebindings` puts the value of each assignment to a declared name in its place. What is no
  longer found is that the target is declared.

Both guards against such assignments are in question there, that of the pass over assignments and
that of the walk over statements: were there a name on which they disagreed, the comparison would
fail for it.
-/

namespace Conform

/-! ## Leaving redefinitions out -/

/-- Whether an item declares a name that one of the items before it declares. -/
def Item.isTaken (before : List Item) (item : Item) : Bool :=
  item.declared?.any fun ident =>
    (before.filterMap Item.declared?).any fun first => first.name = ident.name

/-- Items without those that declare a name which an item before them declares. The items `before`
stand before all of them. -/
def definitions (before : List Item) : List Item → List Item
  | [] => []
  | item :: rest =>
    if item.isTaken before then definitions (before ++ [item]) rest
    else item :: definitions (before ++ [item]) rest

theorem Item.isTaken_eq (before : List Item) (item : Item) :
    item.isTaken before = (item.declared?.bind fun ident =>
      identNamed? (before.filterMap Item.declared?) ident.name).isSome := by
  unfold Item.isTaken
  cases item.declared? with
  | none => rfl
  | some ident =>
    rw [Option.any_some, Option.bind_some, identNamed?, Bool.eq_iff_iff, List.find?_isSome,
      List.any_eq_true]

/-- The items that are left are those that rank behind no other. -/
theorem definitions_eq (before items : List Item) :
    definitions before items = ((rank (before.filterMap Item.declared?) items).filter
      fun entry => entry.2.isNone).map Prod.fst := by
  induction items generalizing before with
  | nil => rfl
  | cons item rest ih =>
    have hbefore : (before ++ [item]).filterMap Item.declared? =
        before.filterMap Item.declared? ++ item.declared?.toList := by
      rw [List.filterMap_append, filterMap_declared?_cons, List.filterMap_nil, List.append_nil]
    rw [definitions, Item.isTaken_eq, ih, hbefore, rank_cons]
    cases item.declared?.bind fun ident =>
      identNamed? (before.filterMap Item.declared?) ident.name with
    | none => rfl
    | some first => rfl

/-- What is left out has taken no name, so the items after it rank as if it were not there. -/
theorem rank_cons_taken {taken : List Ident} {item : Item} {ident first : Ident}
    (hdecl : item.declared? = some ident) (hfirst : identNamed? taken ident.name = some first)
    (rest : List Item) : rank taken (item :: rest) = (item, some first) :: rank taken rest := by
  simp only [rank, hdecl, hfirst]

/-- Ranked by themselves, the items that rank behind no other rank as they did. -/
theorem rank_inForce (taken : List Ident) (items : List Item) :
    rank taken (((rank taken items).filter fun entry => entry.2.isNone).map Prod.fst) =
      (rank taken items).filter fun entry => entry.2.isNone := by
  induction items generalizing taken with
  | nil => rfl
  | cons item rest ih =>
    cases hfirst : item.declared?.bind fun ident => identNamed? taken ident.name with
    | none =>
      rw [rank_cons, hfirst, List.filter_cons_of_pos rfl, List.map_cons, rank_cons, hfirst, ih]
    | some first =>
      obtain ⟨ident, hdecl, hfirst⟩ := Option.bind_eq_some_iff.mp hfirst
      rw [rank_cons_taken hdecl hfirst, List.filter_cons_of_neg (by simp), ih]

/-- The first definition of each name is left. -/
theorem identNamed?_inForce (taken : List Ident) (items : List Item) (name : String) :
    identNamed? (taken ++ (((rank taken items).filter fun entry => entry.2.isNone).map
      Prod.fst).filterMap Item.declared?) name =
      identNamed? (taken ++ items.filterMap Item.declared?) name := by
  induction items generalizing taken with
  | nil => rfl
  | cons item rest ih =>
    cases hfirst : item.declared?.bind fun ident => identNamed? taken ident.name with
    | none =>
      rw [rank_cons, hfirst, List.filter_cons_of_pos rfl, List.map_cons, filterMap_declared?_cons,
        filterMap_declared?_cons, ← List.append_assoc, ← List.append_assoc, ih]
    | some first =>
      obtain ⟨ident, hdecl, hfirst⟩ := Option.bind_eq_some_iff.mp hfirst
      have htaken : (identNamed? taken ident.name).isSome = true := by rw [hfirst]; rfl
      rw [rank_cons_taken hdecl hfirst, List.filter_cons_of_neg (by simp), ih,
        filterMap_declared?_cons, hdecl, ← List.append_assoc, identNamed?_append,
        identNamed?_append, Option.toList_some, identNamed?_append_taken htaken]

namespace Module

/-- A module without the records and functions whose names are taken. -/
def withoutRedefinitions (m : Module) : Module :=
  ⟨definitions [] m.items⟩

section Redefinitions

variable (m : Module)

theorem items_withoutRedefinitions : m.withoutRedefinitions.items =
    (m.ranked.filter fun entry => entry.2.isNone).map Prod.fst :=
  definitions_eq [] m.items

theorem ranked_withoutRedefinitions :
    m.withoutRedefinitions.ranked = m.ranked.filter fun entry => entry.2.isNone := by
  rw [ranked, items_withoutRedefinitions]
  exact rank_inForce [] m.items

theorem identNamed?_withoutRedefinitions (name : String) :
    identNamed? m.withoutRedefinitions.declared name = identNamed? m.declared name := by
  rw [declared, items_withoutRedefinitions]
  exact identNamed?_inForce [] m.items name

theorem redefinitions_withoutRedefinitions : m.withoutRedefinitions.redefinitions = [] := by
  unfold redefinitions
  rw [ranked_withoutRedefinitions, List.filterMap_eq_nil_iff]
  intro entry hentry
  obtain ⟨item, first?⟩ := entry
  obtain rfl : first? = none := by simpa using (List.mem_filter.mp hentry).2
  cases item <;> rfl

theorem recordsInForce_withoutRedefinitions :
    m.withoutRedefinitions.recordsInForce = m.recordsInForce := by
  unfold recordsInForce
  rw [ranked_withoutRedefinitions, List.filterMap_filter]
  refine List.filterMap_congr fun entry _ => ?_
  obtain ⟨item, first?⟩ := entry
  cases item <;> cases first? <;> rfl

theorem functionsInForce_withoutRedefinitions :
    m.withoutRedefinitions.functionsInForce = m.functionsInForce := by
  rw [functionsInForce_eq, functionsInForce_eq, ranked_withoutRedefinitions, List.filterMap_filter]
  refine List.filterMap_congr fun entry _ => ?_
  obtain ⟨item, first?⟩ := entry
  cases item <;> cases first? <;> rfl

/-- Of the functions those in force are left. -/
theorem functions_withoutRedefinitions : m.withoutRedefinitions.functions = m.functionsInForce := by
  rw [functions, items_withoutRedefinitions, functionsInForce_eq, List.filterMap_map,
    List.filterMap_filter]
  refine List.filterMap_congr fun entry _ => ?_
  obtain ⟨item, first?⟩ := entry
  cases item <;> cases first? <;> rfl

/-- A statement declares no name, so all of them are left. -/
theorem statements_withoutRedefinitions : m.withoutRedefinitions.statements = m.statements := by
  rw [statements, statements, items_withoutRedefinitions, ← m.map_fst_ranked, List.filterMap_map,
    List.filterMap_map, List.filterMap_filter]
  refine List.filterMap_congr fun entry hentry => ?_
  obtain ⟨item, first?⟩ := entry
  cases item with
  | function decl => cases first? <;> rfl
  | record decl => cases first? <;> rfl
  | stmt s =>
    obtain ⟨_, _, _, hfirst⟩ := mem_rank_iff.mp hentry
    rw [hfirst]
    rfl

theorem assignments_withoutRedefinitions :
    m.withoutRedefinitions.assignments = m.assignments := by
  rw [assignments_eq, assignments_eq, statements_withoutRedefinitions]

theorem sameDeclarations_withoutRedefinitions : m.SameDeclarations m.withoutRedefinitions where
  named name := (m.identNamed?_withoutRedefinitions name).symm
  records := m.recordsInForce_withoutRedefinitions.symm
  functions := by rw [functionsInForce_withoutRedefinitions]
  assigned := by
    unfold variableAssignments
    simp only [assignments_withoutRedefinitions, identNamed?_withoutRedefinitions]

end Redefinitions

section WithoutRedefinitions

variable {m : Module} {w : Widening} {d : Diagnostic}

/-- What holds of a function holds of one in force or of a redefinition. -/
theorem exists_functions_iff {p : FunctionDecl → Prop} :
    (∃ decl ∈ m.functions, p decl) ↔ (∃ decl ∈ m.functionsInForce, p decl) ∨
      ∃ decl first, m.Redefines (.function decl) decl.name first ∧ p decl := by
  simp only [mem_functions_iff_inForce, or_and_right, exists_or, exists_and_right]

theorem mem_globals_findings_iff_withoutRedefinitions :
    d ∈ m.globals.findings m ↔
      d ∈ m.withoutRedefinitions.globals.findings m.withoutRedefinitions ∨ d ∈ m.redefinitions ∨
      ∃ decl first, m.Redefines (.function decl) decl.name first ∧
        d ∈ decl.unknown m.recordsInForce := by
  rw [m.sameDeclarations_withoutRedefinitions.mem_globals_findings_iff, mem_globals_findings_iff,
    redefinitions_withoutRedefinitions, functions_withoutRedefinitions,
    assignments_withoutRedefinitions, exists_functions_iff]
  constructor
  · intro h
    rcases h with hredef | hreports | (hunknown | hremoved) | hrest
    · exact Or.inr (Or.inl hredef)
    · exact Or.inl (Or.inr (Or.inl hreports))
    · exact Or.inl (Or.inr (Or.inr (Or.inl hunknown)))
    · exact Or.inr (Or.inr hremoved)
    · exact Or.inl (Or.inr (Or.inr (Or.inr hrest)))
  · intro h
    rcases h with (hnil | hreports | hunknown | hrest) | hredef | hremoved
    · exact absurd hnil List.not_mem_nil
    · exact Or.inr (Or.inl hreports)
    · exact Or.inr (Or.inr (Or.inl (Or.inl hunknown)))
    · exact Or.inr (Or.inr (Or.inr hrest))
    · exact Or.inl hredef
    · exact Or.inr (Or.inr (Or.inl (Or.inr hremoved)))

theorem mem_findingsOfItems_iff_withoutRedefinitions :
    d ∈ findingsOfItems w m.globals m.globals.scope.push m.items ↔
      d ∈ findingsOfItems w m.withoutRedefinitions.globals
        m.withoutRedefinitions.globals.scope.push m.withoutRedefinitions.items ∨
      ∃ decl first, m.Redefines (.function decl) decl.name first ∧
        d ∈ decl.findings w m.globals := by
  rw [m.sameDeclarations_withoutRedefinitions.mem_findingsOfItems_iff,
    (SameDeclarations.refl m).mem_findingsOfItems_iff, functions_withoutRedefinitions,
    statements_withoutRedefinitions, exists_functions_iff, or_right_comm]

/-- What is found with the redefinitions and not without them. -/
theorem mem_diagnostics_iff_withoutRedefinitions :
    d ∈ (check w m).diagnostics ↔ d ∈ (check w m.withoutRedefinitions).diagnostics ∨
      (∃ item ident first, m.Redefines item ident first ∧
        d = .duplicateDefinition ident.name ident.span first.span) ∨
      ∃ decl first, m.Redefines (.function decl) decl.name first ∧
        (d ∈ decl.unknown m.recordsInForce ∨ d ∈ decl.findings w m.globals) := by
  rw [mem_diagnostics_iff, mem_diagnostics_iff, mem_globals_findings_iff_withoutRedefinitions,
    mem_findingsOfItems_iff_withoutRedefinitions, mem_redefinitions_iff, or_or_or_comm]
  simp only [and_or_left, exists_or, or_assoc]

end WithoutRedefinitions

end Module

/-! ## Leaving assignments to declared names out -/

/-- A statement, with its value in place of an assignment to one of the names. -/
def Stmt.withoutRebinding (declared : List Ident) : Stmt → Stmt
  | .assign a => if (identNamed? declared a.target.name).isSome then .expr a.value else .assign a
  | stmt => stmt

section Walk

variable {g : Globals}

/-- At the top level the value of an assignment to a declared name is all that is looked at. -/
theorem Stmt.findings_withoutRebinding (w : Widening) (scope : Scope) (stmt : Stmt) :
    (stmt.withoutRebinding g.declared).findings w g .topLevel scope =
      stmt.findings w g .topLevel scope := by
  cases stmt with
  | expr value => rfl
  | ret value? span => rfl
  | assign a =>
    rw [withoutRebinding]
    split
    · next hdeclared =>
      have hredef : a.isRedefinition g .topLevel = true := hdeclared
      rw [findings, findings, if_pos hredef]
    · rfl

theorem Stmt.leaves_withoutRebinding (scope : Scope) (stmt : Stmt) :
    (stmt.withoutRebinding g.declared).leaves g .topLevel scope =
      stmt.leaves g .topLevel scope := by
  cases stmt with
  | expr value => rfl
  | ret value? span => rfl
  | assign a =>
    rw [withoutRebinding]
    split
    · next hdeclared =>
      have hredef : a.isRedefinition g .topLevel = true := hdeclared
      show scope = (Stmt.assign a).leaves g .topLevel scope
      rw [leaves, if_pos hredef]
    · rfl

theorem findingsOfBody_withoutRebinding (w : Widening) (scope : Scope) (stmts : List Stmt) :
    findingsOfBody w g .topLevel scope (stmts.map (Stmt.withoutRebinding g.declared)) =
      findingsOfBody w g .topLevel scope stmts := by
  induction stmts generalizing scope with
  | nil => rfl
  | cons stmt rest ih =>
    rw [List.map_cons, findingsOfBody, findingsOfBody, stmt.findings_withoutRebinding,
      stmt.leaves_withoutRebinding, ih]

end Walk

namespace Module

/-- A module with the value of each top-level assignment to a declared name in its place. -/
def withoutRebindings (m : Module) : Module :=
  m.map id (Stmt.withoutRebinding m.declared)

section Rebindings

variable (m : Module)

theorem declared_withoutRebindings : m.withoutRebindings.declared = m.declared :=
  declared_map (fun _ => rfl) m

theorem redefinitions_withoutRebindings : m.withoutRebindings.redefinitions = m.redefinitions :=
  redefinitions_map (fun _ => rfl) m

theorem functions_withoutRebindings : m.withoutRebindings.functions = m.functions :=
  (functions_map (fun _ => rfl) m).trans (List.map_id _)

theorem statements_withoutRebindings :
    m.withoutRebindings.statements = m.statements.map (Stmt.withoutRebinding m.declared) :=
  m.statements_map

/-- Of the assignments those to variables are left. -/
theorem assignments_withoutRebindings :
    m.withoutRebindings.assignments = m.variableAssignments := by
  rw [variableAssignments, assignments_eq, assignments_eq, statements_withoutRebindings,
    List.filterMap_map, List.filter_filterMap]
  refine List.filterMap_congr fun stmt _ => ?_
  cases stmt with
  | expr value => rfl
  | ret value? span => rfl
  | assign a =>
    rw [Function.comp_apply, Stmt.withoutRebinding]
    cases hdeclared : identNamed? m.declared a.target.name with
    | none => simp [Option.filter, hdeclared]
    | some first => simp [Option.filter, hdeclared]

theorem sameDeclarations_withoutRebindings : m.SameDeclarations m.withoutRebindings := by
  refine .of_map m (fun _ => rfl) (fun _ => rfl) ?_
  show m.withoutRebindings.variableAssignments = m.variableAssignments
  conv => lhs; unfold variableAssignments
  rw [assignments_withoutRebindings, declared_withoutRebindings, variableAssignments,
    List.filter_filter]
  simp only [Bool.and_self]

end Rebindings

section WithoutRebindings

variable {m : Module} {w : Widening} {d : Diagnostic}

/-- What is found about top-level assignments is found about those to variables, or is that the
target is declared. -/
theorem mem_globalFindings_iff {records : List RecordDecl} :
    (∃ a ∈ m.assignments, d ∈ a.globalFindings records m.declared) ↔
      (∃ a ∈ m.variableAssignments, d ∈ a.globalFindings records m.declared) ∨
      ∃ a first, .assign a ∈ m.statements ∧ identNamed? m.declared a.target.name = some first ∧
        d = .duplicateDefinition a.target.name a.target.span first.span := by
  constructor
  · intro h
    obtain ⟨a, hmem, hd⟩ := h
    cases hdeclared : identNamed? m.declared a.target.name with
    | none => exact Or.inl ⟨a, List.mem_filter.mpr ⟨hmem, by rw [hdeclared]; rfl⟩, hd⟩
    | some first =>
      rw [Assignment.globalFindings, hdeclared] at hd
      exact Or.inr ⟨a, first, mem_assignments_iff.mp hmem, hdeclared, List.mem_singleton.mp hd⟩
  · intro h
    rcases h with ⟨a, hmem, hd⟩ | ⟨a, first, hmem, hdeclared, rfl⟩
    · exact ⟨a, (List.mem_filter.mp hmem).1, hd⟩
    · refine ⟨a, mem_assignments_iff.mpr hmem, ?_⟩
      rw [Assignment.globalFindings, hdeclared]
      exact List.mem_singleton_self _

/-- What is found with the assignments to declared names and not without them. -/
theorem mem_diagnostics_iff_withoutRebindings :
    d ∈ (check w m).diagnostics ↔ d ∈ (check w m.withoutRebindings).diagnostics ∨
      ∃ a first, .assign a ∈ m.statements ∧ identNamed? m.declared a.target.name = some first ∧
        d = .duplicateDefinition a.target.name a.target.span first.span := by
  have hsame := m.sameDeclarations_withoutRebindings
  have hglobals : d ∈ m.globals.findings m ↔
      d ∈ m.withoutRebindings.globals.findings m.withoutRebindings ∨
      ∃ a first, .assign a ∈ m.statements ∧ identNamed? m.declared a.target.name = some first ∧
        d = .duplicateDefinition a.target.name a.target.span first.span := by
    rw [hsame.mem_globals_findings_iff, mem_globals_findings_iff, redefinitions_withoutRebindings,
      functions_withoutRebindings, assignments_withoutRebindings, mem_globalFindings_iff]
    simp only [or_assoc]
  have hitems : d ∈ findingsOfItems w m.globals m.globals.scope.push m.items ↔
      d ∈ findingsOfItems w m.withoutRebindings.globals m.withoutRebindings.globals.scope.push
        m.withoutRebindings.items := by
    rw [hsame.mem_findingsOfItems_iff, (SameDeclarations.refl m).mem_findingsOfItems_iff,
      functions_withoutRebindings, statements_withoutRebindings]
    exact or_congr_right (by rw [← findingsOfBody_withoutRebinding]; rfl)
  rw [mem_diagnostics_iff, mem_diagnostics_iff, hglobals, hitems, or_right_comm]

end WithoutRebindings

/-- The first definition of a name stays in force: later declarations of it and assignments to it
add what is reported of them, and nothing else. -/
theorem check_first_definition (w : Widening) (m : Module) :
    ((check w m.withoutRedefinitions).scope = (check w m).scope ∧
      ∀ d, d ∈ (check w m).diagnostics ↔ d ∈ (check w m.withoutRedefinitions).diagnostics ∨
        (∃ item ident first, m.Redefines item ident first ∧
          d = .duplicateDefinition ident.name ident.span first.span) ∨
        ∃ decl first, m.Redefines (.function decl) decl.name first ∧
          (d ∈ decl.unknown m.recordsInForce ∨ d ∈ decl.findings w m.globals)) ∧
    (check w m.withoutRebindings).scope = (check w m).scope ∧
      ∀ d, d ∈ (check w m).diagnostics ↔ d ∈ (check w m.withoutRebindings).diagnostics ∨
        ∃ a first, .assign a ∈ m.statements ∧ identNamed? m.declared a.target.name = some first ∧
          d = .duplicateDefinition a.target.name a.target.span first.span :=
  ⟨⟨m.sameDeclarations_withoutRedefinitions.scope.symm,
      fun _ => mem_diagnostics_iff_withoutRedefinitions⟩,
    m.sameDeclarations_withoutRebindings.scope.symm,
    fun _ => mem_diagnostics_iff_withoutRebindings⟩

end Module

end Conform
