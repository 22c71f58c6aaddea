import Conform.Proofs.Registered
import Conform.Proofs.Statements

/-!
# How often a record is built

`Resolution.visit` ends since it never follows a reference into a record that waits on the path, and
it is quick since it never builds a record that is settled. To say the second, a run of the search
needs to tell what it has built, which its result does not: `Resolution.Resolves` is the search as a
relation, with the records that are built in the order in which that starts.

The relation is the search: every run of `visit` is one (`resolves_foldl_visit`), and there is no
other from the same state (`Resolves.unique`). A run settles what it builds, and that is nothing
that was settled or waits on the path (`Resolves.settles`, `Resolves.fresh`). So the records of a
module are built once each, whatever the cycles among them, and **what comes after finds all of them
settled** and only looks up: it changes no record and has nothing to report but names of no record
(`Module.records_are_built_once`).
-/

namespace Conform

namespace Resolution

variable {records : List RecordDecl} {path : List String} {r r' : Resolution} {refs : List Ident}
  {built : List RecordDecl}

/-! ## The search as a relation -/

/-- From a state of the search and with the records on a path waiting, references are followed one
after another; this builds some records and leads to another state. -/
inductive Resolves (records : List RecordDecl) :
    List String → Resolution → List Ident → List RecordDecl → Resolution → Prop
  | done (path : List String) (r : Resolution) : Resolves records path r [] [] r
  | unknown {path : List String} {r r' : Resolution} {ref : Ident} {rest : List Ident}
      {built : List RecordDecl} (hnone : recordNamed? records ref.name = none)
      (h : Resolves records path (r.report (.unknownType ref.name ref.span)) rest built r') :
      Resolves records path r (ref :: rest) built r'
  | recursive {path : List String} {r r' : Resolution} {ref : Ident} {rest : List Ident}
      {decl : RecordDecl} {built : List RecordDecl}
      (hdecl : recordNamed? records ref.name = some decl) (hpath : ref.name ∈ path)
      (h : Resolves records path (r.report (.recursiveRecord ref.name ref.span)) rest built r') :
      Resolves records path r (ref :: rest) built r'
  | settled {path : List String} {r r' : Resolution} {ref : Ident} {rest : List Ident}
      {decl : RecordDecl} {built : List RecordDecl}
      (hdecl : recordNamed? records ref.name = some decl) (hpath : ref.name ∉ path)
      (hsettled : r.isSettled ref.name = true) (h : Resolves records path r rest built r') :
      Resolves records path r (ref :: rest) built r'
  | build {path : List String} {r inner r' : Resolution} {ref : Ident} {rest : List Ident}
      {decl : RecordDecl} {below after : List RecordDecl}
      (hdecl : recordNamed? records ref.name = some decl) (hpath : ref.name ∉ path)
      (hnew : r.isSettled ref.name = false)
      (hinner : Resolves records (ref.name :: path) r decl.references below inner)
      (h : Resolves records path (inner.settle decl) rest after r') :
      Resolves records path r (ref :: rest) (decl :: (below ++ after)) r'

/-- What following a reference does, by what it names. -/
theorem visit_eq (path : List String) (r : Resolution) (ref : Ident) :
    visit records path r ref =
      match recordNamed? records ref.name with
      | none => r.report (.unknownType ref.name ref.span)
      | some decl =>
        if ref.name ∈ path then r.report (.recursiveRecord ref.name ref.span)
        else if r.isSettled ref.name then r
        else (decl.references.foldl (visit records (ref.name :: path)) r).settle decl := by
  rw [visit]
  split <;> simp_all

/-- **The search ends**, from every state, on every path and whatever the references. -/
theorem resolves_foldl_visit (path : List String) (refs : List Ident) (r : Resolution) :
    ∃ built, Resolves records path r refs built (refs.foldl (visit records path) r) := by
  -- Each step inward leaves fewer records off the path; the references at one level are a list.
  induction hlength : (offPath records path).length using Nat.strong_induction_on
    generalizing path refs r with
  | _ length ihInner =>
    induction refs generalizing r with
    | nil => exact ⟨[], .done path r⟩
    | cons ref rest ihRest =>
      rw [List.foldl_cons, visit_eq]
      cases hdecl : recordNamed? records ref.name with
      | none =>
        obtain ⟨built, hrest⟩ := ihRest (r.report (.unknownType ref.name ref.span))
        exact ⟨built, .unknown hdecl hrest⟩
      | some decl =>
        dsimp only
        by_cases hpath : ref.name ∈ path
        · rw [if_pos hpath]
          obtain ⟨built, hrest⟩ := ihRest (r.report (.recursiveRecord ref.name ref.span))
          exact ⟨built, .recursive hdecl hpath hrest⟩
        · rw [if_neg hpath]
          cases hsettled : r.isSettled ref.name with
          | true =>
            obtain ⟨built, hrest⟩ := ihRest r
            exact ⟨built, .settled hdecl hpath hsettled hrest⟩
          | false =>
            obtain ⟨below, hinner⟩ := ihInner _ (hlength ▸ length_offPath_lt hdecl hpath)
              (ref.name :: path) decl.references r rfl
            obtain ⟨after, hrest⟩ := ihRest
              ((decl.references.foldl (visit records (ref.name :: path)) r).settle decl)
            exact ⟨_, .build hdecl hpath hsettled hinner hrest⟩

/-- A run is determined by where it starts. -/
theorem Resolves.unique (h : Resolves records path r refs built r') {others : List RecordDecl}
    {other : Resolution} (h' : Resolves records path r refs others other) :
    others = built ∧ other = r' := by
  induction h generalizing others other with
  | done => cases h' with
    | done => exact ⟨rfl, rfl⟩
  | unknown hnone _ ih =>
    cases h' with
    | unknown _ h' => exact ih h'
    | recursive hdecl => exact absurd (hnone.symm.trans hdecl) (by simp)
    | settled hdecl => exact absurd (hnone.symm.trans hdecl) (by simp)
    | build hdecl => exact absurd (hnone.symm.trans hdecl) (by simp)
  | recursive hdecl hpath _ ih =>
    cases h' with
    | unknown hnone => exact absurd (hnone.symm.trans hdecl) (by simp)
    | recursive _ _ h' => exact ih h'
    | settled _ hpath' => exact absurd hpath hpath'
    | build _ hpath' => exact absurd hpath hpath'
  | settled hdecl hpath hsettled _ ih =>
    cases h' with
    | unknown hnone => exact absurd (hnone.symm.trans hdecl) (by simp)
    | recursive _ hpath' => exact absurd hpath' hpath
    | settled _ _ _ h' => exact ih h'
    | build _ _ hnew => exact absurd (hsettled.symm.trans hnew) (by simp)
  | build hdecl hpath hnew _ _ ihInner ih =>
    cases h' with
    | unknown hnone => exact absurd (hnone.symm.trans hdecl) (by simp)
    | recursive _ hpath' => exact absurd hpath' hpath
    | settled _ _ hsettled => exact absurd (hsettled.symm.trans hnew) (by simp)
    | build hdecl' _ _ hinner' h' =>
      obtain rfl := Option.some.inj (hdecl.symm.trans hdecl')
      obtain ⟨rfl, rfl⟩ := ihInner hinner'
      obtain ⟨rfl, rfl⟩ := ih h'
      exact ⟨rfl, rfl⟩

/-! ## What a run builds and settles -/

/-- The names of records. -/
def names (decls : List RecordDecl) : List String :=
  decls.map fun decl => decl.name.name

/-- A run settles what it builds, before what was settled. -/
theorem Resolves.settles (h : Resolves records path r refs built r') :
    ∃ entries, r'.settled = entries ++ r.settled ∧ (entries.map Prod.fst).Perm (names built) := by
  induction h with
  | done => exact ⟨[], rfl, .nil⟩
  | unknown _ _ ih => exact ih
  | recursive _ _ _ ih => exact ih
  | settled _ _ _ _ ih => exact ih
  | @build _ r inner r' ref _ decl below after hdecl _ _ _ _ ihInner ih =>
    obtain ⟨entries, hinner, hnames⟩ := ihInner
    obtain ⟨later, hafter, hnames'⟩ := ih
    refine ⟨later ++ (decl.name.name, decl.type? inner.typeOf?) :: entries, ?_, ?_⟩
    · rw [hafter, settle_eq, hinner, List.append_assoc, List.cons_append]
    · rw [List.map_append, List.map_cons, names, List.map_cons, List.map_append]
      refine List.perm_middle.trans (.cons _ ?_)
      exact (List.perm_append_comm).trans (hnames.append hnames')

theorem Resolves.isSettled_iff (h : Resolves records path r refs built r') {name : String} :
    r'.isSettled name = true ↔ name ∈ names built ∨ r.isSettled name = true := by
  obtain ⟨entries, hsettled, hnames⟩ := h.settles
  have hmem : ∀ s : Resolution, s.isSettled name = true ↔ name ∈ s.settled.map Prod.fst := by
    intro s
    simp [isSettled]
  rw [hmem, hmem, hsettled, List.map_append, List.mem_append, hnames.mem_iff]

/-- What a run builds are records that neither wait nor are settled when it starts, and no two of
them have the same name. -/
theorem Resolves.fresh (h : Resolves records path r refs built r') :
    (names built).Nodup ∧ ∀ decl ∈ built, recordNamed? records decl.name.name = some decl ∧
      decl.name.name ∉ path ∧ r.isSettled decl.name.name = false := by
  induction h with
  | done => exact ⟨List.nodup_nil, nofun⟩
  | unknown _ _ ih => exact ih
  | recursive _ _ _ ih => exact ih
  | settled _ _ _ _ ih => exact ih
  | @build path r inner r' ref rest decl below after hdecl hpath hnew hinner _ ihInner ih =>
    obtain ⟨hbelow, hfresh⟩ := ihInner
    obtain ⟨hafter, hfresh'⟩ := ih
    have hname := (mem_of_recordNamed? hdecl).2
    -- What is built after the record has not been settled by then, so it is new all the more.
    have hnot : ∀ other ∈ after, other.name.name ≠ decl.name.name ∧
        other.name.name ∉ names below ∧ r.isSettled other.name.name = false := by
      intro other hmem
      have hopen := (hfresh' other hmem).2.2
      rw [Bool.eq_false_iff, Ne, isSettled_settle, hinner.isSettled_iff, not_or, not_or] at hopen
      exact ⟨fun heq => hopen.1 heq.symm, hopen.2.1, Bool.eq_false_iff.mpr hopen.2.2⟩
    refine ⟨?_, fun other hmem => ?_⟩
    · rw [names, List.map_cons, List.map_append, List.nodup_cons, List.mem_append]
      refine ⟨fun hmem => ?_, hbelow.append hafter fun name hmem hmem' => ?_⟩
      · rcases hmem with hmem | hmem
        · obtain ⟨other, hother, heq⟩ := List.mem_map.mp hmem
          exact (hfresh other hother).2.1 (heq ▸ hname ▸ List.mem_cons_self)
        · obtain ⟨other, hother, heq⟩ := List.mem_map.mp hmem
          exact (hnot other hother).1 heq
      · obtain ⟨other, hother, rfl⟩ := List.mem_map.mp hmem'
        exact (hnot other hother).2.1 hmem
    · rcases List.mem_cons.mp hmem with rfl | hmem
      · exact ⟨hname ▸ hdecl, hname ▸ hpath, hname ▸ hnew⟩
      · rcases List.mem_append.mp hmem with hmem | hmem
        · obtain ⟨hnamed, hoff, hopen⟩ := hfresh other hmem
          exact ⟨hnamed, fun hin => hoff (List.mem_cons_of_mem _ hin), hopen⟩
        · obtain ⟨hnamed, hoff, _⟩ := hfresh' other hmem
          exact ⟨hnamed, hoff, (hnot other hmem).2.2⟩

/-- After a run each reference to a record that does not wait is settled. -/
theorem Resolves.isSettled (h : Resolves records path r refs built r') {ref : Ident}
    (hmem : ref ∈ refs) (hdecl : (recordNamed? records ref.name).isSome = true)
    (hpath : ref.name ∉ path) : r'.isSettled ref.name = true := by
  induction h with
  | done => exact absurd hmem List.not_mem_nil
  | unknown hnone _ ih =>
    rcases List.mem_cons.mp hmem with rfl | hmem
    · exact absurd hdecl (by simp [hnone])
    · exact ih hmem hpath
  | recursive _ hin _ ih =>
    rcases List.mem_cons.mp hmem with rfl | hmem
    · exact absurd hin hpath
    · exact ih hmem hpath
  | settled _ _ hsettled hrest ih =>
    rcases List.mem_cons.mp hmem with rfl | hmem
    · exact hrest.isSettled_iff.mpr (Or.inr hsettled)
    · exact ih hmem hpath
  | build hnamed _ _ _ hrest _ ih =>
    rcases List.mem_cons.mp hmem with rfl | hmem
    · have hname := (mem_of_recordNamed? hnamed).2
      exact hrest.isSettled_iff.mpr (Or.inr ((isSettled_settle _ _ _).mpr (Or.inl hname)))
    · exact ih hmem hpath

/-! ## Answers -/

/-- A record is settled with a type. -/
def Registered (r : Resolution) (name : String) (ty : Ty) : Prop :=
  (name, some ty) ∈ r.settled

/-- A record is settled without a type. -/
def Failed (r : Resolution) (name : String) : Prop :=
  (name, none) ∈ r.settled

theorem isSettled_iff_exists {name : String} :
    r.isSettled name = true ↔ ∃ ty?, (name, ty?) ∈ r.settled := by
  simp [isSettled]

/-- What is settled stays as it is. -/
theorem Resolves.mem_settled_iff (h : Resolves records path r refs built r') {name : String}
    (hname : r.isSettled name = true) {ty? : Option Ty} :
    (name, ty?) ∈ r'.settled ↔ (name, ty?) ∈ r.settled := by
  obtain ⟨entries, hsettled, hnames⟩ := h.settles
  rw [hsettled, List.mem_append, or_iff_right_iff_imp]
  intro hmem
  have hbuilt := hnames.mem_iff.mp (List.mem_map_of_mem hmem)
  obtain ⟨decl, hdecl, heq⟩ := List.mem_map.mp hbuilt
  have hnew := (h.fresh.2 decl hdecl).2.2
  rw [heq] at hnew
  exact absurd (hname.symm.trans hnew) (by simp)

/-- A search from the start settles each name once. -/
theorem Resolves.nodup_settled (h : Resolves records [] empty refs built r) :
    (r.settled.map Prod.fst).Nodup := by
  obtain ⟨entries, hsettled, hnames⟩ := h.settles
  rw [hsettled, empty, List.append_nil, hnames.nodup_iff]
  exact h.fresh.1

theorem typeOf?_eq_some_iff (hnodup : (r.settled.map Prod.fst).Nodup) {name : String} {ty : Ty} :
    r.typeOf? name = some ty ↔ r.Registered name ty := by
  rw [typeOf?, Option.bind_eq_some_iff, Registered]
  simp only [find?_key_eq_some_iff hnodup]
  constructor
  · rintro ⟨⟨_, _⟩, ⟨hmem, rfl⟩, rfl⟩
    exact hmem
  · intro hmem
    exact ⟨_, ⟨hmem, rfl⟩, rfl⟩

/-- A record that is settled has a type or has failed, and not both. -/
theorem xor_registered_failed (hnodup : (r.settled.map Prod.fst).Nodup) {name : String}
    (hname : r.isSettled name = true) : Xor (∃ ty, r.Registered name ty) (r.Failed name) := by
  have hone : ∀ ty, r.Registered name ty → ¬ r.Failed name := by
    intro ty hty hfailed
    have heq := List.inj_on_of_nodup_map hnodup hty hfailed rfl
    exact absurd (Prod.mk.inj heq).2 (by simp)
  obtain ⟨ty?, hmem⟩ := isSettled_iff_exists.mp hname
  cases ty? with
  | some ty => exact Or.inl ⟨⟨ty, hmem⟩, hone ty hmem⟩
  | none => exact Or.inr ⟨hmem, fun ⟨ty, hty⟩ => hone ty hty hmem⟩

/-! ## The search for all records, and after it -/

theorem resolves_all (records : List RecordDecl) :
    ∃ built, Resolves records [] empty (records.map RecordDecl.name) built (all records) := by
  obtain ⟨built, h⟩ := @resolves_foldl_visit records [] (records.map RecordDecl.name) empty
  rw [List.foldl_map] at h
  exact ⟨built, h⟩

/-- All records are built, each once. -/
theorem Resolves.perm_records (hnodup : (names records).Nodup)
    (h : Resolves records [] empty (records.map RecordDecl.name) built r) : built.Perm records := by
  refine (List.perm_ext_iff_of_nodup h.fresh.1.of_map hnodup.of_map).mpr fun decl => ?_
  constructor
  · intro hmem
    exact (mem_of_recordNamed? (h.fresh.2 decl hmem).1).1
  · intro hmem
    have hdecl := (recordNamed?_eq_some_iff hnodup).mpr ⟨hmem, rfl⟩
    have hsettled : r.isSettled decl.name.name = true :=
      h.isSettled (List.mem_map_of_mem hmem) (by rw [hdecl]; rfl) List.not_mem_nil
    rcases h.isSettled_iff.mp hsettled with hbuilt | hempty
    · obtain ⟨other, hother, heq⟩ := List.mem_map.mp hbuilt
      have hnamed := (h.fresh.2 other hother).1
      rw [heq] at hnamed
      obtain rfl := Option.some.inj (hnamed.symm.trans hdecl)
      exact hother
    · exact absurd hempty (by simp [empty, Resolution.isSettled])

/-- Once all records are settled nothing is built, and only names of no record are reported. -/
theorem resolves_of_settled (refs : List Ident)
    (hall : ∀ decl ∈ records, r.isSettled decl.name.name = true) :
    Resolves records [] r refs [] ⟨r.settled, r.reports ++ refs.filterMap fun ref =>
      if (recordNamed? records ref.name).isSome then none
      else some (.unknownType ref.name ref.span)⟩ := by
  induction refs generalizing r with
  | nil =>
    rw [List.filterMap_nil, List.append_nil]
    exact .done [] r
  | cons ref rest ih =>
    cases hdecl : recordNamed? records ref.name with
    | none =>
      rw [List.filterMap_cons, hdecl]
      have hrest := ih (r := r.report (.unknownType ref.name ref.span)) hall
      rw [report, List.append_assoc] at hrest
      exact .unknown hdecl hrest
    | some decl =>
      rw [List.filterMap_cons, hdecl]
      obtain ⟨hmem, hname⟩ := mem_of_recordNamed? hdecl
      exact .settled hdecl List.not_mem_nil (hname ▸ hall decl hmem) (ih hall)

end Resolution

namespace Module

open Resolution

variable {m : Module}

theorem isSettled_of_mem_recordsInForce {decl : RecordDecl} (hmem : decl ∈ m.recordsInForce) :
    m.globals.resolution.isSettled decl.name.name = true :=
  (all_reached m.recordsInForce).2 decl hmem

/-- The records in scope are those that are settled with a type. -/
theorem registers_iff_registered {name : String} {ty : Ty} :
    m.globals.scope.Registers name ty ↔ m.globals.resolution.Registered name ty := by
  obtain ⟨_, h⟩ := resolves_all m.recordsInForce
  rw [registers_iff, ← known_eq_some_iff]
  exact typeOf?_eq_some_iff h.nodup_settled

/-- The records that are poisoned are those that are settled without one. -/
theorem isPoisoned_iff_failed {decl : RecordDecl} (hmem : decl ∈ m.recordsInForce) :
    m.globals.scope.isPoisoned decl.name.name = true ↔
      m.globals.resolution.Failed decl.name.name := by
  obtain ⟨_, h⟩ := resolves_all m.recordsInForce
  have hone := xor_registered_failed h.nodup_settled (isSettled_of_mem_recordsInForce hmem)
  rw [isPoisoned_record_iff hmem, ← exists_types_iff]
  simp only [← registers_iff, registers_iff_registered]
  exact xor_iff_not_iff'.mp hone

/-- With the records of a module settled, an annotation is only looked up. -/
theorem resolves_annotation_iff (form : TyForm) {r r' : Resolution} {built : List RecordDecl}
    (hsettled : r.settled = m.globals.resolution.settled) :
    Resolves m.recordsInForce [] r form.references built r' ↔
      built = [] ∧ r' = ⟨r.settled, r.reports ++ form.unknown m.recordsInForce⟩ := by
  have hall : ∀ decl ∈ m.recordsInForce, r.isSettled decl.name.name = true := by
    intro decl hmem
    rw [Resolution.isSettled, hsettled]
    exact isSettled_of_mem_recordsInForce hmem
  have hrun := resolves_of_settled form.references hall
  refine ⟨fun h => hrun.unique h, ?_⟩
  rintro ⟨rfl, rfl⟩
  exact hrun

/-- A global's annotation is looked up when the global is declared. -/
theorem unknown_subset_findings {a : Assignment} (hmem : .assign a ∈ m.statements)
    (hplace : a.isRedefinition m.globals .topLevel = false) :
    a.unknown m.globals.records ⊆ m.globals.findings m := by
  have hfree : identNamed? m.declared a.target.name = none :=
    Option.not_isSome_iff_eq_none.mp (Bool.eq_false_iff.mp hplace)
  intro d hd
  refine mem_globals_findings_iff.mpr (Or.inr (Or.inr (Or.inr (Or.inr ⟨a, ?_, ?_⟩))))
  · exact mem_assignments_iff.mpr hmem
  · rw [Assignment.globalFindings, hfree]
    exact hd

/-- The records of a module are resolved in a search that ends and builds each of them once; what it
finds is in force from then on.

In turn: the search for all records builds the records in force, each once, and these are the first
definitions; every search ends, in one way, which is that of `visit`; a record that has been
followed from the outside has a type or has failed, and no search changes that; the scope shows the
one and the other; later annotations build and change nothing, and all that is reported of them are
names of no record; and of the annotation of a global that has been reported when the global was
declared. -/
theorem records_are_built_once (w : Widening) (m : Module) :
    (∃ built, Resolves m.recordsInForce [] .empty (m.recordsInForce.map RecordDecl.name) built
        m.globals.resolution ∧ built.Perm m.recordsInForce ∧ (names built).Nodup ∧
      ∀ decl, decl ∈ built ↔ m.DefinesRecord decl) ∧
    (∀ (path : List String) (refs : List Ident) (r : Resolution), ∃ built, ∀ built' r',
      Resolves m.recordsInForce path r refs built' r' ↔
        built' = built ∧ r' = refs.foldl (visit m.recordsInForce path) r) ∧
    (∀ (roots : List Ident) (built : List RecordDecl) (r : Resolution),
      Resolves m.recordsInForce [] .empty roots built r → ∀ ref ∈ roots,
      (recordNamed? m.recordsInForce ref.name).isSome = true →
      Xor (∃ ty, r.Registered ref.name ty) (r.Failed ref.name) ∧
      ∀ (path : List String) (refs : List Ident) (built' : List RecordDecl) (r' : Resolution),
        Resolves m.recordsInForce path r refs built' r' →
        (∀ ty, r'.Registered ref.name ty ↔ r.Registered ref.name ty) ∧
        (r'.Failed ref.name ↔ r.Failed ref.name)) ∧
    (∀ name ty, (check w m).scope.Registers name ty ↔ m.globals.resolution.Registered name ty) ∧
    (∀ decl ∈ m.recordsInForce, (check w m).scope.isPoisoned decl.name.name = true ↔
      m.globals.resolution.Failed decl.name.name) ∧
    (∀ (form : TyForm) (r : Resolution) (built : List RecordDecl) (r' : Resolution),
      r.settled = m.globals.resolution.settled →
      (Resolves m.recordsInForce [] r form.references built r' ↔
        built = [] ∧ r' = ⟨r.settled, r.reports ++ form.unknown m.recordsInForce⟩) ∧
      ∀ d ∈ form.unknown m.recordsInForce, ∃ name span, d = .unknownType name span) ∧
    ∀ a, .assign a ∈ m.statements → a.isRedefinition m.globals .topLevel = false →
      a.unknown m.recordsInForce ⊆ m.globals.findings m := by
  have hnodup : (names m.recordsInForce).Nodup := m.nodup_recordsInForce
  obtain ⟨built, hall⟩ := resolves_all m.recordsInForce
  have hperm := hall.perm_records hnodup
  refine ⟨⟨built, hall, hperm, hall.fresh.1, fun decl => ?_⟩, ?_, ?_, ?_, ?_, ?_, ?_⟩
  · rw [hperm.mem_iff, mem_recordsInForce_iff]
  · intro path refs r
    obtain ⟨built, h⟩ := @resolves_foldl_visit m.recordsInForce path refs r
    refine ⟨built, fun built' r' => ⟨fun h' => h.unique h', ?_⟩⟩
    rintro ⟨rfl, rfl⟩
    exact h
  · intro roots built r h ref hmem hdecl
    have hsettled := h.isSettled hmem hdecl List.not_mem_nil
    refine ⟨xor_registered_failed h.nodup_settled hsettled, fun path refs built' r' h' => ?_⟩
    exact ⟨fun ty => h'.mem_settled_iff hsettled, h'.mem_settled_iff hsettled⟩
  · exact fun name ty => registers_iff_registered
  · exact fun decl hmem => isPoisoned_iff_failed hmem
  · intro form r built r' hsettled
    refine ⟨resolves_annotation_iff form hsettled, fun d hd => ?_⟩
    obtain ⟨ref, _, _, rfl⟩ := TyForm.mem_unknown_iff.mp hd
    exact ⟨ref.name, ref.span, rfl⟩
  · exact fun a hmem hplace => unknown_subset_findings hmem hplace

/-- Two records with a field of each other's type, and another record with the name of the first. -/
def entwined : Module :=
  ⟨[.record ⟨⟨"A", ⟨0, 1⟩⟩, [], true, [⟨⟨"b", ⟨2, 3⟩⟩, .named ⟨"B", ⟨4, 5⟩⟩, none, ⟨2, 5⟩⟩],
      ⟨0, 5⟩⟩,
    .record ⟨⟨"B", ⟨6, 7⟩⟩, [], true, [⟨⟨"a", ⟨8, 9⟩⟩, .named ⟨"A", ⟨10, 11⟩⟩, none, ⟨8, 11⟩⟩],
      ⟨6, 11⟩⟩,
    .record ⟨⟨"A", ⟨12, 13⟩⟩, [], true, [], ⟨12, 13⟩⟩]⟩

/-- Two of the three are built, and the first one has a type or has failed. -/
theorem records_are_built_once_entwined :
    ∃ built, Resolves entwined.recordsInForce [] .empty [⟨"A", ⟨0, 1⟩⟩, ⟨"B", ⟨6, 7⟩⟩] built
        entwined.globals.resolution ∧ built.length = 2 ∧
      Xor (∃ ty, entwined.globals.resolution.Registered "A" ty)
        (entwined.globals.resolution.Failed "A") := by
  obtain ⟨⟨built, hrun, hperm, _, _⟩, _, hanswers, _⟩ :=
    records_are_built_once .empty entwined
  refine ⟨built, hrun, hperm.length_eq, ?_⟩
  exact (hanswers _ built _ hrun ⟨"A", ⟨0, 1⟩⟩ List.mem_cons_self rfl).1

end Module

end Conform
