import Conform.Definition
import Mathlib.Data.List.Nodup

/-!
# Definitions in force

`Module.ranked` walks the items once and remembers the names that are taken. This file says what it
finds without the walk: an item stands beside the first declaration before it that has its name
(`mem_rank_iff`), so a record is in force exactly if nothing above it declares its name
(`mem_recordsInForce_iff`). Every declared name has a definition in force (`exists_declared_iff`).

**Where the declared names are pairwise different nothing is lost**: every item ranks alone
(`rank_eq_map_of_nodup`), and the records and functions in force are all that the module has. No
redefinition is found exactly in that case (`redefinitions_eq_nil_iff`), which is how a checked
module comes to know it.

Ranking looks at names alone. If functions and statements are changed where they stand and the
functions keep their names (`Module.map`), the same definitions are in force.
-/

namespace Conform

/-! ## Identifiers by name -/

theorem identNamed?_append (before after : List Ident) (name : String) :
    identNamed? (before ++ after) name = (identNamed? before name).or (identNamed? after name) :=
  List.find?_append

theorem identNamed?_eq_none_iff {idents : List Ident} {name : String} :
    identNamed? idents name = none ↔ ∀ ident ∈ idents, ident.name ≠ name := by
  simp [identNamed?, List.find?_eq_none]

/-- A further identifier with a name that is taken is never the one found. -/
theorem identNamed?_append_taken {taken : List Ident} {ident : Ident}
    (h : (identNamed? taken ident.name).isSome = true) (name : String) :
    identNamed? (taken ++ [ident]) name = identNamed? taken name := by
  obtain ⟨first, hfirst⟩ := Option.isSome_iff_exists.mp h
  rw [identNamed?_append]
  by_cases hname : ident.name = name
  · rw [← hname, hfirst]; rfl
  · simp [identNamed?, hname]

/-- Among entries with different keys the one found is the only one with its key. -/
theorem find?_key_eq_some_iff {α : Type} {key : α → String} {entries : List α}
    (h : (entries.map key).Nodup) {name : String} {entry : α} :
    (entries.find? fun entry => key entry = name) = some entry ↔
      entry ∈ entries ∧ key entry = name := by
  constructor
  · intro hfind
    exact ⟨List.mem_of_find?_eq_some hfind, by simpa using List.find?_some hfind⟩
  · rintro ⟨hmem, rfl⟩
    cases hfind : entries.find? fun other => key other = key entry with
    | none =>
      rw [List.find?_eq_none] at hfind
      exact absurd (hfind entry hmem) (by simp)
    | some other =>
      have hother : other ∈ entries := List.mem_of_find?_eq_some hfind
      have hkey : key other = key entry := by simpa using List.find?_some hfind
      rw [List.inj_on_of_nodup_map h hother hmem hkey]

/-! ## What ranking finds -/

/-- The names that an item and the items after it declare. -/
theorem filterMap_declared?_cons (item : Item) (rest : List Item) :
    (item :: rest).filterMap Item.declared? =
      item.declared?.toList ++ rest.filterMap Item.declared? := by
  cases h : item.declared? <;> simp [h]

/-- What ranking finds depends on the names taken and not on how they are listed. -/
theorem rank_congr {taken taken' : List Ident}
    (h : ∀ name, identNamed? taken name = identNamed? taken' name) (items : List Item) :
    rank taken items = rank taken' items := by
  induction items generalizing taken taken' with
  | nil => rfl
  | cons item rest ih =>
    unfold rank
    cases hdecl : item.declared? with
    | none => simp only [ih h]
    | some ident =>
      dsimp only
      rw [← h ident.name]
      cases htaken : identNamed? taken ident.name with
      | some first => simp only [ih h]
      | none =>
        have h' : ∀ name,
            identNamed? (ident :: taken) name = identNamed? (ident :: taken') name := by
          intro name
          have := h name
          simp only [identNamed?, List.find?_cons] at this ⊢
          split
          · rfl
          · exact this
        simp only [ih h']

/-- One step of ranking: an item stands beside the definition of its name among those taken, and
what it declares joins them at their end, where it hides nothing. -/
theorem rank_cons (taken : List Ident) (item : Item) (rest : List Item) :
    rank taken (item :: rest) =
      (item, item.declared?.bind fun ident => identNamed? taken ident.name) ::
        rank (taken ++ item.declared?.toList) rest := by
  rw [rank]
  cases hdecl : item.declared? with
  | none => simp
  | some ident =>
    simp only [Option.bind_some, Option.toList_some]
    cases htaken : identNamed? taken ident.name with
    | some first =>
      have htaken' : (identNamed? taken ident.name).isSome = true := by rw [htaken]; rfl
      exact congrArg _ (rank_congr (fun name => (identNamed?_append_taken htaken' name).symm) rest)
    | none =>
      refine congrArg _ (rank_congr (fun name => ?_) rest)
      rw [identNamed?_append]
      by_cases hname : ident.name = name
      · rw [← hname, htaken]; simp [identNamed?]
      · simp [identNamed?, hname]

/-- Every item is ranked, in its place. -/
theorem map_fst_rank (taken : List Ident) (items : List Item) :
    (rank taken items).map Prod.fst = items := by
  induction items generalizing taken with
  | nil => rfl
  | cons item rest ih => rw [rank_cons, List.map_cons, ih]

theorem Module.map_fst_ranked (m : Module) : m.ranked.map Prod.fst = m.items :=
  map_fst_rank [] m.items

/-- An item ranks behind the first declaration of its name among those taken and those of the items
before it. -/
theorem mem_rank_iff {taken : List Ident} {items : List Item} {item : Item}
    {first? : Option Ident} :
    (item, first?) ∈ rank taken items ↔
      ∃ before after, items = before ++ item :: after ∧
        first? = item.declared?.bind fun ident =>
          identNamed? (taken ++ before.filterMap Item.declared?) ident.name := by
  -- What an item declares is added to `taken` at its end, so that it comes to stand before the
  -- names of the items after it.
  induction items generalizing taken with
  | nil => simp [rank]
  | cons head rest ih =>
    rw [rank_cons, List.mem_cons, ih]
    constructor
    · rintro (heq | ⟨before, after, hrest, hfirst⟩)
      · cases heq
        exact ⟨[], rest, rfl, by simp⟩
      · refine ⟨head :: before, after, by rw [hrest, List.cons_append], ?_⟩
        rw [hfirst, List.append_assoc, filterMap_declared?_cons]
    · rintro ⟨before, after, hitems, hfirst⟩
      cases before with
      | nil =>
        obtain ⟨rfl, rfl⟩ := List.cons.inj hitems
        exact Or.inl (by rw [hfirst]; simp)
      | cons _ before =>
        obtain ⟨rfl, hrest⟩ := List.cons.inj hitems
        refine Or.inr ⟨before, after, hrest, ?_⟩
        rw [hfirst, List.append_assoc, filterMap_declared?_cons]

/-- If the items are changed one by one and still declare what they did, they rank as before. -/
theorem rank_map {f : Item → Item} (hf : ∀ item, (f item).declared? = item.declared?)
    (taken : List Ident) (items : List Item) :
    rank taken (items.map f) = (rank taken items).map (Prod.map f id) := by
  induction items generalizing taken with
  | nil => rfl
  | cons item rest ih =>
    rw [List.map_cons, rank_cons, rank_cons, List.map_cons, ih, hf]
    rfl

/-! ## Parts of a module -/

/-- The statement that an item is. -/
def Item.stmt? : Item → Option Stmt
  | .stmt s => some s
  | _ => none

/-- The top-level statements, in order. -/
def Module.statements (m : Module) : List Stmt :=
  m.items.filterMap Item.stmt?

theorem Module.mem_statements_iff {m : Module} {stmt : Stmt} :
    stmt ∈ m.statements ↔ .stmt stmt ∈ m.items := by
  rw [statements, List.mem_filterMap]
  constructor
  · intro h
    obtain ⟨item, hmem, hitem⟩ := h
    cases item with
    | stmt _ => cases hitem; exact hmem
    | function _ => exact absurd hitem (by simp [Item.stmt?])
    | record _ => exact absurd hitem (by simp [Item.stmt?])
  · intro h
    exact ⟨.stmt stmt, h, rfl⟩

theorem Module.assignments_eq (m : Module) :
    m.assignments = m.statements.filterMap fun
      | .assign a => some a
      | _ => none := by
  unfold Module.assignments Module.statements
  rw [List.filterMap_filterMap]
  refine List.filterMap_congr fun item _ => ?_
  cases item with
  | stmt stmt => cases stmt <;> rfl
  | record _ => rfl
  | function _ => rfl

theorem Module.mem_assignments_iff {m : Module} {a : Assignment} :
    a ∈ m.assignments ↔ .assign a ∈ m.statements := by
  rw [Module.assignments_eq, List.mem_filterMap]
  constructor
  · intro h
    obtain ⟨stmt, hmem, hstmt⟩ := h
    cases stmt with
    | assign b => cases hstmt; exact hmem
    | expr _ => exact absurd hstmt (by simp)
    | ret _ _ => exact absurd hstmt (by simp)
  · intro h
    exact ⟨_, h, rfl⟩

theorem Module.mem_functions_iff_mem_items {m : Module} {decl : FunctionDecl} :
    .function decl ∈ m.items ↔ decl ∈ m.functions := by
  unfold Module.functions
  rw [List.mem_filterMap]
  constructor
  · intro h
    exact ⟨_, h, rfl⟩
  · intro h
    obtain ⟨item, hmem, hitem⟩ := h
    cases item with
    | function other => cases hitem; exact hmem
    | record _ => exact absurd hitem (by simp)
    | stmt _ => exact absurd hitem (by simp)

/-! ## Records and functions in force -/

/-- The functions in force, in order. -/
def Module.functionsInForce (m : Module) : List FunctionDecl :=
  (m.functionsRanked.filter Prod.snd).map Prod.fst

/-- A record declaration whose name nothing above it in the module declares. -/
def Module.DefinesRecord (m : Module) (decl : RecordDecl) : Prop :=
  ∃ before after, m.items = before ++ .record decl :: after ∧
    ∀ ident ∈ before.filterMap Item.declared?, ident.name ≠ decl.name.name

/-- A function declaration whose name nothing above it in the module declares. -/
def Module.DefinesFunction (m : Module) (decl : FunctionDecl) : Prop :=
  ∃ before after, m.items = before ++ .function decl :: after ∧
    ∀ ident ∈ before.filterMap Item.declared?, ident.name ≠ decl.name.name

/-- An item is in force if nothing above it declares its name. -/
theorem Module.mem_ranked_none_iff {m : Module} {item : Item} {ident : Ident}
    (hdecl : item.declared? = some ident) :
    (item, none) ∈ m.ranked ↔ ∃ before after, m.items = before ++ item :: after ∧
      ∀ other ∈ before.filterMap Item.declared?, other.name ≠ ident.name := by
  rw [Module.ranked, mem_rank_iff]
  simp only [hdecl, Option.bind_some, List.nil_append, eq_comm (a := (none : Option Ident)),
    identNamed?_eq_none_iff]

/-- An item that declares a name below the definition that has taken it. -/
def Module.Redefines (m : Module) (item : Item) (ident first : Ident) : Prop :=
  ∃ before after, m.items = before ++ item :: after ∧ item.declared? = some ident ∧
    identNamed? (before.filterMap Item.declared?) ident.name = some first

theorem Module.mem_ranked_some_iff {m : Module} {item : Item} {first : Ident} :
    (item, some first) ∈ m.ranked ↔ ∃ ident, m.Redefines item ident first := by
  rw [Module.ranked, mem_rank_iff]
  constructor
  · intro h
    obtain ⟨before, after, hitems, hfirst⟩ := h
    obtain ⟨ident, hdecl, hfirst⟩ := Option.bind_eq_some_iff.mp hfirst.symm
    exact ⟨ident, before, after, hitems, hdecl, hfirst⟩
  · intro h
    obtain ⟨ident, before, after, hitems, hdecl, hfirst⟩ := h
    exact ⟨before, after, hitems, by rw [hdecl]; exact hfirst.symm⟩

theorem Module.mem_recordsInForce_iff {m : Module} {decl : RecordDecl} :
    decl ∈ m.recordsInForce ↔ m.DefinesRecord decl := by
  have hranked : decl ∈ m.recordsInForce ↔ (.record decl, none) ∈ m.ranked := by
    unfold Module.recordsInForce
    rw [List.mem_filterMap]
    constructor
    · rintro ⟨⟨item, first?⟩, hmem, hsome⟩
      split at hsome
      · next heq => cases heq; cases hsome; exact hmem
      · exact absurd hsome (by simp)
    · intro hmem
      exact ⟨_, hmem, rfl⟩
  exact hranked.trans (Module.mem_ranked_none_iff rfl)

theorem Module.functionsInForce_eq (m : Module) :
    m.functionsInForce = m.ranked.filterMap fun
      | (.function decl, none) => some decl
      | _ => none := by
  unfold Module.functionsInForce Module.functionsRanked
  induction m.ranked with
  | nil => rfl
  | cons entry rest ih =>
    obtain ⟨item, first?⟩ := entry
    cases item <;> cases first? <;> simp [ih]

theorem Module.mem_functionsInForce_iff_mem_ranked {m : Module} {decl : FunctionDecl} :
    decl ∈ m.functionsInForce ↔ (.function decl, none) ∈ m.ranked := by
  rw [Module.functionsInForce_eq, List.mem_filterMap]
  constructor
  · rintro ⟨⟨item, first?⟩, hmem, hsome⟩
    split at hsome
    · next heq => cases heq; cases hsome; exact hmem
    · exact absurd hsome (by simp)
  · intro hmem
    exact ⟨_, hmem, rfl⟩

theorem Module.mem_functionsInForce_iff {m : Module} {decl : FunctionDecl} :
    decl ∈ m.functionsInForce ↔ m.DefinesFunction decl :=
  Module.mem_functionsInForce_iff_mem_ranked.trans (Module.mem_ranked_none_iff rfl)

/-- A function is in force or redefines a name. -/
theorem Module.mem_functions_iff_inForce {m : Module} {decl : FunctionDecl} :
    decl ∈ m.functions ↔
      decl ∈ m.functionsInForce ∨ ∃ first, m.Redefines (.function decl) decl.name first := by
  rw [← Module.mem_functions_iff_mem_items, ← m.map_fst_ranked, List.mem_map,
    Module.mem_functionsInForce_iff_mem_ranked]
  constructor
  · intro h
    obtain ⟨⟨_, first?⟩, hmem, rfl⟩ := h
    cases first? with
    | none => exact Or.inl hmem
    | some first =>
      obtain ⟨ident, before, after, hsplit, hdecl, hfirst⟩ := Module.mem_ranked_some_iff.mp hmem
      cases hdecl
      exact Or.inr ⟨first, before, after, hsplit, rfl, hfirst⟩
  · intro h
    rcases h with hmem | ⟨first, hredefines⟩
    · exact ⟨_, hmem, rfl⟩
    · exact ⟨_, Module.mem_ranked_some_iff.mpr ⟨_, hredefines⟩, rfl⟩

/-- A name in force is that of a record or of a function and not of both: the one of them that
stands below the other is a redefinition. -/
theorem Module.DefinesRecord.name_ne {m : Module} {decl : RecordDecl} {other : FunctionDecl}
    (h : m.DefinesRecord decl) (h' : m.DefinesFunction other) :
    decl.name.name ≠ other.name.name := by
  intro hname
  obtain ⟨before, after, hitems, hfirst⟩ := h
  obtain ⟨before', after', hitems', hfirst'⟩ := h'
  rw [hitems] at hitems'
  -- One of the two stands among the items before the other, which then declare its name.
  rcases List.append_eq_append_iff.mp hitems' with ⟨mid, hbefore, hrest⟩ | ⟨mid, hbefore, hrest⟩
  · cases mid with
    | nil => exact absurd (List.cons.inj hrest).1 Item.noConfusion
    | cons item mid =>
      obtain ⟨rfl, _⟩ := List.cons.inj hrest
      exact hfirst' decl.name (by rw [hbefore]; simp [Item.declared?]) hname
  · cases mid with
    | nil => exact absurd (List.cons.inj hrest).1 Item.noConfusion
    | cons item mid =>
      obtain ⟨rfl, _⟩ := List.cons.inj hrest
      exact hfirst other.name (by rw [hbefore]; simp [Item.declared?]) hname.symm

/-- A name that a module declares has a definition in force, which is the first item that declares
it. -/
theorem Module.exists_declared_iff {m : Module} {name : String} :
    (∃ ident ∈ m.declared, ident.name = name) ↔
      (∃ decl ∈ m.recordsInForce, decl.name.name = name) ∨
        ∃ decl ∈ m.functionsInForce, decl.name.name = name := by
  simp only [Module.mem_recordsInForce_iff, Module.mem_functionsInForce_iff]
  constructor
  · intro h
    obtain ⟨ident, hident, hname⟩ := h
    -- The items are searched for one that declares the name; those before it declare others.
    obtain ⟨item, hitem, hdecl⟩ := List.mem_filterMap.mp hident
    have hsome : (m.items.find? fun item =>
        item.declared?.any fun other => other.name = name).isSome = true := by
      rw [List.find?_isSome]
      exact ⟨item, hitem, by simp [hdecl, hname]⟩
    obtain ⟨first, hfirst⟩ := Option.isSome_iff_exists.mp hsome
    obtain ⟨hdeclares, before, after, hitems, hbefore⟩ := List.find?_eq_some_iff_append.mp hfirst
    have hother : ∀ other ∈ before.filterMap Item.declared?, other.name ≠ name := by
      intro other hmem hother
      obtain ⟨item, hitem, hdecl⟩ := List.mem_filterMap.mp hmem
      have := hbefore item hitem
      simp [hdecl, hother] at this
    cases first with
    | record decl =>
      obtain rfl : decl.name.name = name := by simpa [Item.declared?] using hdeclares
      exact Or.inl ⟨decl, ⟨before, after, hitems, hother⟩, rfl⟩
    | function decl =>
      obtain rfl : decl.name.name = name := by simpa [Item.declared?] using hdeclares
      exact Or.inr ⟨decl, ⟨before, after, hitems, hother⟩, rfl⟩
    | stmt _ => exact absurd hdeclares (by simp [Item.declared?])
  · intro h
    rcases h with ⟨decl, ⟨before, after, hitems, _⟩, rfl⟩ | ⟨decl, ⟨before, after, hitems, _⟩, rfl⟩
    · refine ⟨decl.name, List.mem_filterMap.mpr ⟨.record decl, ?_, rfl⟩, rfl⟩
      rw [hitems]
      simp
    · refine ⟨decl.name, List.mem_filterMap.mpr ⟨.function decl, ?_, rfl⟩, rfl⟩
      rw [hitems]
      simp

/-- Whatever is selected among the definitions in force has pairwise different names, none of which
is taken before. -/
theorem nodup_select_rank {α : Type} {name : α → String} {select : Item × Option Ident → Option α}
    (hselect : ∀ item first? a, select (item, first?) = some a →
      first? = none ∧ ∃ ident, item.declared? = some ident ∧ ident.name = name a)
    (taken : List Ident) (items : List Item) :
    (((rank taken items).filterMap select).map name).Nodup ∧
      ∀ a ∈ (rank taken items).filterMap select, identNamed? taken (name a) = none := by
  induction items generalizing taken with
  | nil => simp [rank]
  | cons item rest ih =>
    obtain ⟨hnodup, hfresh⟩ := ih (taken ++ item.declared?.toList)
    have hrest : ∀ a ∈ (rank (taken ++ item.declared?.toList) rest).filterMap select,
        identNamed? taken (name a) = none := by
      intro a ha
      have := hfresh a ha
      rw [identNamed?_append] at this
      exact (Option.or_eq_none_iff.mp this).1
    rw [rank_cons]
    cases hsel : select (item, item.declared?.bind fun ident => identNamed? taken ident.name) with
    | none =>
      rw [List.filterMap_cons_none hsel]
      exact ⟨hnodup, hrest⟩
    | some a =>
      rw [List.filterMap_cons_some hsel]
      obtain ⟨hfirst, ident, hdecl, hname⟩ := hselect _ _ _ hsel
      rw [hdecl] at hfirst hfresh
      refine ⟨?_, ?_⟩
      · rw [List.map_cons, List.nodup_cons]
        refine ⟨fun hmem => ?_, hnodup⟩
        -- The selected item has joined the names taken, so no later one has its name.
        obtain ⟨b, hb, hba⟩ := List.mem_map.mp hmem
        rw [hdecl] at hb
        have := hfresh b hb
        rw [identNamed?_eq_none_iff] at this
        exact this ident (by simp) (by rw [hname, hba])
      · intro b hb
        rcases List.mem_cons.mp hb with rfl | hb
        · rw [← hname]; exact hfirst
        · exact hrest b hb

theorem Module.nodup_recordsInForce (m : Module) :
    (m.recordsInForce.map fun decl => decl.name.name).Nodup := by
  refine (nodup_select_rank (fun item first? a hsel => ?_) [] m.items).1
  split at hsel
  · next heq =>
    cases heq
    cases hsel
    exact ⟨rfl, _, rfl, rfl⟩
  · exact absurd hsel (by simp)

theorem Module.nodup_functionsInForce (m : Module) :
    (m.functionsInForce.map fun decl => decl.name.name).Nodup := by
  rw [Module.functionsInForce_eq]
  refine (nodup_select_rank (fun item first? a hsel => ?_) [] m.items).1
  split at hsel
  · next heq =>
    cases heq
    cases hsel
    exact ⟨rfl, _, rfl, rfl⟩
  · exact absurd hsel (by simp)

/-! ## Modules that declare every name once -/

theorem rank_eq_map_of_nodup (taken : List Ident) {items : List Item}
    (h : ((taken ++ items.filterMap Item.declared?).map Ident.name).Nodup) :
    rank taken items = items.map fun item => (item, none) := by
  induction items generalizing taken with
  | nil => rfl
  | cons item rest ih =>
    rw [filterMap_declared?_cons, ← List.append_assoc] at h
    rw [rank_cons, ih _ h, List.map_cons]
    have hfree : (item.declared?.bind fun ident => identNamed? taken ident.name) = none := by
      cases hdecl : item.declared? with
      | none => rfl
      | some ident =>
        rw [Option.bind_some, identNamed?_eq_none_iff]
        intro other hother hname
        rw [hdecl, List.map_append, List.map_append, List.append_assoc] at h
        exact List.disjoint_of_nodup_append h (List.mem_map.mpr ⟨other, hother, hname⟩) (by simp)
    rw [hfree]

theorem nodup_of_rank (taken : List Ident) {items : List Item}
    (htaken : (taken.map Ident.name).Nodup) (h : ∀ entry ∈ rank taken items, entry.2 = none) :
    ((taken ++ items.filterMap Item.declared?).map Ident.name).Nodup := by
  induction items generalizing taken with
  | nil => simpa using htaken
  | cons item rest ih =>
    rw [rank_cons] at h
    rw [filterMap_declared?_cons, ← List.append_assoc]
    refine ih _ ?_ fun entry hentry => h entry (List.mem_cons_of_mem _ hentry)
    -- The item ranks behind no name that is taken, so the names stay different with its own.
    have hfree := h _ List.mem_cons_self
    cases hdecl : item.declared? with
    | none => simpa using htaken
    | some ident =>
      dsimp only at hfree
      rw [hdecl, Option.bind_some, identNamed?_eq_none_iff] at hfree
      rw [List.map_append]
      refine htaken.append (by simp) ?_
      intro name hname hname'
      obtain ⟨other, hother, honame⟩ := List.mem_map.mp hname
      simp only [Option.toList_some, List.map_cons, List.map_nil, List.mem_singleton] at hname'
      exact hfree other hother (by rw [honame, hname'])

/-- No redefinition is found exactly if the declared names are pairwise different. -/
theorem Module.redefinitions_eq_nil_iff {m : Module} :
    m.redefinitions = [] ↔ (m.declared.map Ident.name).Nodup := by
  constructor
  · intro h
    refine nodup_of_rank [] (by simp) fun ⟨item, first?⟩ hentry => ?_
    cases first? with
    | none => rfl
    | some first =>
      exfalso
      obtain ⟨_, _, _, hfirst⟩ := mem_rank_iff.mp hentry
      cases hdecl : item.declared? with
      | none => rw [hdecl] at hfirst; exact absurd hfirst (by simp)
      | some ident =>
        have := List.filterMap_eq_nil_iff.mp h _ hentry
        simp [hdecl] at this
  · intro h
    unfold Module.redefinitions Module.ranked
    rw [rank_eq_map_of_nodup [] h]
    simp [List.filterMap_map]

theorem Module.recordsInForce_of_nodup {m : Module} (h : (m.declared.map Ident.name).Nodup) :
    m.recordsInForce = m.records := by
  unfold Module.recordsInForce Module.records Module.ranked
  rw [rank_eq_map_of_nodup [] h, List.filterMap_map]
  refine List.filterMap_congr fun item _ => ?_
  cases item <;> rfl

theorem Module.functionsRanked_of_nodup {m : Module} (h : (m.declared.map Ident.name).Nodup) :
    m.functionsRanked = m.functions.map fun decl => (decl, true) := by
  unfold Module.functionsRanked Module.functions Module.ranked
  rw [rank_eq_map_of_nodup [] h, List.filterMap_map, List.map_filterMap]
  refine List.filterMap_congr fun item _ => ?_
  cases item <;> rfl

theorem Module.functionsInForce_of_nodup {m : Module} (h : (m.declared.map Ident.name).Nodup) :
    m.functionsInForce = m.functions := by
  unfold Module.functionsInForce
  rw [Module.functionsRanked_of_nodup h]
  induction m.functions with
  | nil => rfl
  | cons decl rest ih => simpa using ih

/-- Every function is ranked, in its place. -/
theorem Module.map_fst_functionsRanked (m : Module) :
    m.functionsRanked.map Prod.fst = m.functions := by
  unfold Module.functionsRanked Module.functions
  rw [← m.map_fst_ranked, List.filterMap_map, List.map_filterMap]
  refine List.filterMap_congr fun entry _ => ?_
  obtain ⟨item, first?⟩ := entry
  cases item <;> rfl

/-! ## Modules changed item by item -/

/-- An item, with a change of functions and one of statements. -/
def Item.map (onFunction : FunctionDecl → FunctionDecl) (onStmt : Stmt → Stmt) : Item → Item
  | .function decl => .function (onFunction decl)
  | .record decl => .record decl
  | .stmt s => .stmt (onStmt s)

/-- A module, with a change of its functions and one of its top-level statements. -/
def Module.map (onFunction : FunctionDecl → FunctionDecl) (onStmt : Stmt → Stmt) (m : Module) :
    Module :=
  ⟨m.items.map (Item.map onFunction onStmt)⟩

section Map

variable {onFunction : FunctionDecl → FunctionDecl} {onStmt : Stmt → Stmt}

theorem Module.statements_map (m : Module) :
    (m.map onFunction onStmt).statements = m.statements.map onStmt := by
  unfold Module.statements Module.map
  rw [List.filterMap_map, List.map_filterMap]
  refine List.filterMap_congr fun item _ => ?_
  cases item <;> rfl

variable (hname : ∀ decl, (onFunction decl).name = decl.name)

include hname

theorem Item.declared?_map (item : Item) :
    (item.map onFunction onStmt).declared? = item.declared? := by
  cases item with
  | function decl => exact congrArg some (hname decl)
  | record _ => rfl
  | stmt _ => rfl

variable (m : Module)

theorem Module.declared_map : (m.map onFunction onStmt).declared = m.declared := by
  unfold Module.declared Module.map
  rw [List.filterMap_map]
  exact List.filterMap_congr fun item _ => item.declared?_map hname

theorem Module.ranked_map : (m.map onFunction onStmt).ranked =
    m.ranked.map (Prod.map (Item.map onFunction onStmt) id) :=
  rank_map (Item.declared?_map hname) [] m.items

theorem Module.redefinitions_map :
    (m.map onFunction onStmt).redefinitions = m.redefinitions := by
  unfold Module.redefinitions
  rw [Module.ranked_map hname, List.filterMap_map]
  refine List.filterMap_congr fun entry _ => ?_
  simp only [Function.comp_apply, Prod.map_fst, Prod.map_snd, Item.declared?_map hname, id_eq]

theorem Module.recordsInForce_map :
    (m.map onFunction onStmt).recordsInForce = m.recordsInForce := by
  unfold Module.recordsInForce
  rw [Module.ranked_map hname, List.filterMap_map]
  refine List.filterMap_congr fun entry _ => ?_
  obtain ⟨item, first?⟩ := entry
  cases item <;> rfl

theorem Module.functionsRanked_map : (m.map onFunction onStmt).functionsRanked =
    m.functionsRanked.map (Prod.map onFunction id) := by
  unfold Module.functionsRanked
  rw [Module.ranked_map hname, List.filterMap_map, List.map_filterMap]
  refine List.filterMap_congr fun entry _ => ?_
  obtain ⟨item, first?⟩ := entry
  cases item <;> rfl

theorem Module.functions_map :
    (m.map onFunction onStmt).functions = m.functions.map onFunction := by
  rw [← Module.map_fst_functionsRanked, ← Module.map_fst_functionsRanked,
    Module.functionsRanked_map hname, List.map_map, List.map_map]
  rfl

theorem Module.functionsInForce_map :
    (m.map onFunction onStmt).functionsInForce = m.functionsInForce.map onFunction := by
  unfold Module.functionsInForce
  rw [Module.functionsRanked_map hname, List.filter_map, List.map_map, List.map_map]
  rfl

end Map

end Conform
