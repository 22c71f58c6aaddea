import Conform.Proofs.Record

/-!
# The search for the types of records

`Resolution.visit` is a depth-first search with a path and a memory. What it leaves behind does not
depend on the path: every change that it makes is one of three **steps** (`Step`), each of which can
be justified from the graph of references alone —

* a name of no record is reported where a record refers to it,
* a name on a cycle is reported where a record refers to it,
* a record is settled once all that it refers to has been dealt with.

`visit_steps` is the only place where the recursion of the search is opened, and the path is used
there for one thing: a name on it can be reached from itself, so what is reported as a cycle is
one. Everything after it is an invariant of steps, proved for one step and carried along a run.

The memory is what makes the rest worth proving. A record can be settled **without** a type because
a record further up the path was not settled yet, and it stays so for good; that this is right needs
that such a record lies on a cycle itself and could not have had a type
(`Resolution.exists_typeOf?`).
-/

namespace Conform

open Relation

/-! ## What settling a record adds -/

namespace RecordDecl

variable {decl : RecordDecl} {known : String → Option Ty}

/-- The type of a record, given the types of those that it refers to. -/
def type? (known : String → Option Ty) (decl : RecordDecl) : Option Ty :=
  (decl.fieldTypes? known).bind fun fields =>
    (Ty.record? (some decl.name.name) fields).toOption

/-- The repeated field of a record, if there is one. -/
def malformed (known : String → Option Ty) (decl : RecordDecl) : List Diagnostic :=
  match decl.fieldTypes? known with
  | none => []
  | some fields =>
    match Ty.record? (some decl.name.name) fields with
    | .ok _ => []
    | .error cause => [.malformedType decl.name.name cause decl.name.span]

theorem type?_eq_some_iff {ty : Ty} :
    decl.type? known = some ty ↔
      ∃ fields, decl.HasFields (fun name ty => known name = some ty) fields ∧
        (fields.map Field.name).Nodup ∧ ty = .record (some decl.name.name) fields := by
  rw [type?, Option.bind_eq_some_iff]
  refine exists_congr fun fields => and_congr fieldTypes?_eq_some_iff ?_
  rw [← Ty.record?_eq_ok_iff]
  cases Ty.record? (some decl.name.name) fields <;> simp [Except.toOption]

theorem mem_malformed_iff {d : Diagnostic} :
    d ∈ decl.malformed known ↔ ∃ fields cause,
      decl.HasFields (fun name ty => known name = some ty) fields ∧
        Ty.record? (some decl.name.name) fields = .error cause ∧
        d = .malformedType decl.name.name cause decl.name.span := by
  unfold malformed
  cases hfields : decl.fieldTypes? known with
  | none =>
    constructor
    · intro h; exact absurd h (by simp)
    · intro ⟨fields, _, h, _⟩
      rw [fieldTypes?_eq_some_iff.mpr h] at hfields
      exact absurd hfields (by simp)
  | some fields =>
    have hhas := fieldTypes?_eq_some_iff.mp hfields
    have huniq : ∀ fields', decl.HasFields (fun name ty => known name = some ty) fields' →
        fields' = fields := by
      intro fields' h
      have := fieldTypes?_eq_some_iff.mpr h
      rw [hfields] at this
      exact (Option.some.inj this).symm
    dsimp only
    constructor
    · intro h
      split at h
      · exact absurd h (by simp)
      · next cause hcause => exact ⟨fields, cause, hhas, hcause, by simpa using h⟩
    · intro ⟨fields', cause, h, hcause, hd⟩
      rw [huniq fields' h] at hcause
      rw [hcause]
      simpa using hd

end RecordDecl

namespace Resolution

@[simp] theorem isSettled_report (r : Resolution) (d : Diagnostic) (name : String) :
    (r.report d).isSettled name = r.isSettled name := rfl

@[simp] theorem typeOf?_report (r : Resolution) (d : Diagnostic) :
    (r.report d).typeOf? = r.typeOf? := rfl

@[simp] theorem mem_reports_report {r : Resolution} {d e : Diagnostic} :
    e ∈ (r.report d).reports ↔ e ∈ r.reports ∨ e = d := by
  simp [report]

theorem settle_eq (r : Resolution) (decl : RecordDecl) :
    r.settle decl = ⟨(decl.name.name, decl.type? r.typeOf?) :: r.settled,
      r.reports ++ decl.malformed r.typeOf?⟩ := by
  unfold settle RecordDecl.type? RecordDecl.malformed
  cases decl.fieldTypes? r.typeOf? with
  | none => simp
  | some fields =>
    cases h : Ty.record? (some decl.name.name) fields <;> simp [h, report, Except.toOption]

@[simp] theorem isSettled_settle (r : Resolution) (decl : RecordDecl) (name : String) :
    (r.settle decl).isSettled name = true ↔ decl.name.name = name ∨ r.isSettled name = true := by
  simp [settle_eq, isSettled]

@[simp] theorem typeOf?_settle (r : Resolution) (decl : RecordDecl) (name : String) :
    (r.settle decl).typeOf? name =
      if decl.name.name = name then decl.type? r.typeOf? else r.typeOf? name := by
  by_cases h : decl.name.name = name <;> simp [settle_eq, typeOf?, h]

@[simp] theorem mem_reports_settle {r : Resolution} {decl : RecordDecl} {d : Diagnostic} :
    d ∈ (r.settle decl).reports ↔ d ∈ r.reports ∨ d ∈ decl.malformed r.typeOf? := by
  simp [settle_eq]

/-! ## Steps -/

/-- A reference has been dealt with: it is known to name no record or a record on a cycle, or the
record that it names is settled. -/
def Handled (records : List RecordDecl) (r : Resolution) (ref : Ident) : Prop :=
  (recordNamed? records ref.name = none ∧ .unknownType ref.name ref.span ∈ r.reports) ∨
    (TransGen (Refers records) ref.name ref.name ∧ .recursiveRecord ref.name ref.span ∈ r.reports) ∨
    r.isSettled ref.name = true

/-- What the search can do next. -/
inductive Step (records : List RecordDecl) : Resolution → Resolution → Prop
  | unknown {r : Resolution} {decl : RecordDecl} {ref : Ident} (hmem : decl ∈ records)
      (href : decl.RefersTo ref) (hnone : recordNamed? records ref.name = none) :
      Step records r (r.report (.unknownType ref.name ref.span))
  | recursive {r : Resolution} {decl : RecordDecl} {ref : Ident} (hmem : decl ∈ records)
      (href : decl.RefersTo ref) (hcycle : TransGen (Refers records) ref.name ref.name) :
      Step records r (r.report (.recursiveRecord ref.name ref.span))
  | settle {r : Resolution} {decl : RecordDecl}
      (hdecl : recordNamed? records decl.name.name = some decl)
      (hnew : r.isSettled decl.name.name = false)
      (hrefs : ∀ ref, decl.RefersTo ref → Handled records r ref) : Step records r (r.settle decl)

variable {records : List RecordDecl} {r r' : Resolution}

theorem Step.isSettled (h : Step records r r') {name : String} (hname : r.isSettled name = true) :
    r'.isSettled name = true := by
  cases h with
  | unknown => exact hname
  | recursive => exact hname
  | settle => exact (isSettled_settle _ _ _).mpr (Or.inr hname)

theorem Step.mem_reports (h : Step records r r') {d : Diagnostic} (hd : d ∈ r.reports) :
    d ∈ r'.reports := by
  cases h with
  | unknown => exact mem_reports_report.mpr (Or.inl hd)
  | recursive => exact mem_reports_report.mpr (Or.inl hd)
  | settle => exact mem_reports_settle.mpr (Or.inl hd)

theorem steps_isSettled (h : ReflTransGen (Step records) r r') {name : String}
    (hname : r.isSettled name = true) : r'.isSettled name = true := by
  induction h with
  | refl => exact hname
  | tail _ hstep ih => exact hstep.isSettled ih

theorem steps_mem_reports (h : ReflTransGen (Step records) r r') {d : Diagnostic}
    (hd : d ∈ r.reports) : d ∈ r'.reports := by
  induction h with
  | refl => exact hd
  | tail _ hstep ih => exact hstep.mem_reports ih

/-! ## The search makes steps -/

/-- How a visit leaves a reference. On the path it may still stand for a record that waits. -/
def Followed (records : List RecordDecl) (path : List String) (r : Resolution) (ref : Ident) :
    Prop :=
  (recordNamed? records ref.name = none ∧ .unknownType ref.name ref.span ∈ r.reports) ∨
    (ref.name ∈ path ∧ .recursiveRecord ref.name ref.span ∈ r.reports) ∨
    r.isSettled ref.name = true

theorem Followed.steps {path : List String} {ref : Ident} (h : Followed records path r ref)
    (hsteps : ReflTransGen (Step records) r r') : Followed records path r' ref := by
  rcases h with ⟨hnone, hmem⟩ | ⟨hpath, hmem⟩ | hsettled
  · exact Or.inl ⟨hnone, steps_mem_reports hsteps hmem⟩
  · exact Or.inr (Or.inl ⟨hpath, steps_mem_reports hsteps hmem⟩)
  · exact Or.inr (Or.inr (steps_isSettled hsteps hsettled))

/-- A visit that may be made with the records on the path waiting: they all lead to the reference,
none of them is settled, and a record refers to it unless it is where the search starts. -/
structure Admits (records : List RecordDecl) (path : List String) (r : Resolution) (ref : Ident) :
    Prop where
  leads : ∀ name ∈ path, TransGen (Refers records) name ref.name
  waits : ∀ name ∈ path, r.isSettled name = false
  written : (∃ decl ∈ records, decl.RefersTo ref) ∨
    (path = [] ∧ (recordNamed? records ref.name).isSome = true)

/-- What a visit achieves: it makes steps, settles nothing on the path and follows the reference. -/
structure Achieves (records : List RecordDecl) (path : List String) (r : Resolution) (ref : Ident)
    (r' : Resolution) : Prop where
  steps : ReflTransGen (Step records) r r'
  waits : ∀ name ∈ path, r'.isSettled name = false
  followed : Followed records path r' ref

/-- Visits one after another: if each achieves what it should, so do they all together. -/
theorem foldl_visit {path : List String}
    (hvisit : ∀ r ref, Admits records path r ref →
      Achieves records path r ref (visit records path r ref))
    (refs : List Ident) (r : Resolution)
    (hadmits : ∀ ref ∈ refs, ∀ r', (∀ name ∈ path, r'.isSettled name = false) →
      Admits records path r' ref)
    (hwaits : ∀ name ∈ path, r.isSettled name = false) :
    ReflTransGen (Step records) r (refs.foldl (visit records path) r) ∧
      (∀ name ∈ path, (refs.foldl (visit records path) r).isSettled name = false) ∧
      ∀ ref ∈ refs, Followed records path (refs.foldl (visit records path) r) ref := by
  induction refs generalizing r with
  | nil => exact ⟨.refl, hwaits, by simp⟩
  | cons ref rest ih =>
    have hfirst := hvisit r ref (hadmits ref List.mem_cons_self r hwaits)
    obtain ⟨hsteps, hwaits', hfollowed⟩ :=
      ih _ (fun ref' h => hadmits ref' (List.mem_cons_of_mem _ h)) hfirst.waits
    rw [List.foldl_cons]
    refine ⟨hfirst.steps.trans hsteps, hwaits', fun ref' hmem => ?_⟩
    rcases List.mem_cons.mp hmem with rfl | hmem
    · exact hfirst.followed.steps hsteps
    · exact hfollowed ref' hmem

/-- **The search makes steps.** The path is used to justify what it reports as a cycle, and to know
that a record is not settled while it waits. -/
theorem visit_steps (path : List String) (r : Resolution) (ref : Ident)
    (h : Admits records path r ref) : Achieves records path r ref (visit records path r ref) := by
  induction path, r, ref using visit.induct records with
  | case1 path r ref hnone =>
    have hvisit : visit records path r ref = r.report (.unknownType ref.name ref.span) := by
      rw [visit]; split <;> simp_all
    rw [hvisit]
    -- The search starts from records, so a name of none is one that a record refers to.
    rcases h.written with ⟨decl, hmem, href⟩ | ⟨_, hsome⟩
    · exact ⟨.single (.unknown hmem href hnone), h.waits,
        Or.inl ⟨hnone, mem_reports_report.mpr (Or.inr rfl)⟩⟩
    · rw [hnone] at hsome
      exact absurd hsome (by simp)
  | case2 path r ref decl hdecl hpath =>
    have hvisit : visit records path r ref = r.report (.recursiveRecord ref.name ref.span) := by
      rw [visit]; split <;> simp_all
    rw [hvisit]
    -- Every record on the path leads to the reference, and it is on the path itself.
    rcases h.written with ⟨decl, hmem, href⟩ | ⟨hnil, _⟩
    · exact ⟨.single (.recursive hmem href (h.leads _ hpath)), h.waits,
        Or.inr (Or.inl ⟨hpath, mem_reports_report.mpr (Or.inr rfl)⟩)⟩
    · rw [hnil] at hpath
      exact absurd hpath (by simp)
  | case3 path r ref decl hdecl hpath hsettled =>
    have hvisit : visit records path r ref = r := by
      rw [visit]; split <;> simp_all
    rw [hvisit]
    exact ⟨.refl, h.waits, Or.inr (Or.inr hsettled)⟩
  | case4 path r ref decl hdecl hpath hsettled ih =>
    have hvisit : visit records path r ref =
        (decl.references.foldl (visit records (ref.name :: path)) r).settle decl := by
      rw [visit]; split <;> simp_all
    obtain ⟨hmem, hname⟩ := mem_of_recordNamed? hdecl
    have hrefers : ∀ next, decl.RefersTo next → Refers records ref.name next.name :=
      fun next hnext => ⟨decl, hmem, hname, next, hnext, rfl⟩
    -- With the record itself on the path, each of its references may be visited.
    have hadmits : ∀ next ∈ decl.references, ∀ r',
        (∀ name ∈ ref.name :: path, r'.isSettled name = false) →
          Admits records (ref.name :: path) r' next := by
      intro next hnext r' hwaits
      have hnext := RecordDecl.mem_references_iff.mp hnext
      refine ⟨fun name hin => ?_, hwaits, Or.inl ⟨decl, hmem, hnext⟩⟩
      rcases List.mem_cons.mp hin with rfl | hin
      · exact .single (hrefers next hnext)
      · exact (h.leads name hin).tail (hrefers next hnext)
    have hopen : ∀ name ∈ ref.name :: path, r.isSettled name = false := by
      intro name hin
      rcases List.mem_cons.mp hin with rfl | hin
      · simpa using hsettled
      · exact h.waits name hin
    obtain ⟨hsteps, hwaits, hfollowed⟩ := foldl_visit ih decl.references r hadmits hopen
    rw [hvisit]
    generalize decl.references.foldl (visit records (ref.name :: path)) r = r' at *
    -- What still waits on the path refers back to the record, so it lies on a cycle with it.
    have hsettle : Step records r' (r'.settle decl) := by
      refine .settle (hname ▸ hdecl) (hname ▸ hwaits _ List.mem_cons_self) fun next hnext => ?_
      rcases hfollowed next (RecordDecl.mem_references_iff.mpr hnext) with hno | ⟨hin, hrep⟩ | hdone
      · exact Or.inl hno
      · refine Or.inr (Or.inl ⟨?_, hrep⟩)
        rcases List.mem_cons.mp hin with heq | hin
        · rw [heq]
          exact .single (heq ▸ hrefers next hnext)
        · exact (h.leads _ hin).tail (hrefers next hnext)
      · exact Or.inr (Or.inr hdone)
    refine ⟨hsteps.tail hsettle, fun name hin => ?_, ?_⟩
    · have hne : decl.name.name ≠ name := by
        intro heq
        exact hpath (hname ▸ heq ▸ hin)
      rw [Bool.eq_false_iff, ne_eq, isSettled_settle]
      rintro (heq | hdone)
      · exact hne heq
      · rw [hwaits name (List.mem_cons_of_mem _ hin)] at hdone
        exact absurd hdone (by simp)
    · exact Or.inr (Or.inr ((isSettled_settle _ _ _).mpr (Or.inl hname)))

end Resolution

end Conform
