import Conform.Proofs.Search

/-!
# What the search finds

The invariants of runs, and what they come to when every record has been settled. A run is any
sequence of the steps of `Proofs/Search.lean` from the empty memory; that the search makes one is
`all_reached`. Whatever a run reports is `Justified` by the declarations, and for the converse a
settled record is taken back to the moment at which it was settled (`exists_settledAt`).

* `typeOf?_all_eq_some_iff` — the types found are those that the declarations give.
* `resolvable_iff` — a record has a type exactly if it is resolvable.
* `unknownType_mem_all_iff`, `malformedType_mem_all_iff` — what is reported about names of no record
  and about repeated fields, without mention of an order.
* `exists_recursiveRecord_mem_all_iff` — some cycle is reported exactly if there is one. **Which**
  one depends on where the search starts, and this is the only thing that does.
-/

namespace Conform

open Relation

namespace Resolution

/-- A state that a run of the search can be in. -/
def Reached (records : List RecordDecl) (r : Resolution) : Prop :=
  ReflTransGen (Step records) empty r

variable {records : List RecordDecl} {r : Resolution} {name : String} {ty : Ty}

/-! ## Settled records and their types -/

/-- A run has settled a record in the state `r'` on its way to `r`. -/
structure SettledAt (records : List RecordDecl) (r : Resolution) (decl : RecordDecl)
    (r' : Resolution) : Prop where
  mem : decl ∈ records
  reached : Reached records r'
  handled : ∀ ref, decl.RefersTo ref → Handled records r' ref
  later : ReflTransGen (Step records) (r'.settle decl) r

theorem exists_settledAt (h : Reached records r) (hname : r.isSettled name = true) :
    ∃ decl r', decl.name.name = name ∧ SettledAt records r decl r' := by
  induction h with
  | refl => exact absurd hname (by simp [empty, isSettled])
  | @tail r next hrun hstep ih =>
    have hbefore : r.isSettled name = true →
        ∃ decl r', decl.name.name = name ∧ SettledAt records next decl r' := by
      intro hname
      obtain ⟨decl, r', heq, hsettled⟩ := ih hname
      exact ⟨decl, r', heq, { hsettled with later := hsettled.later.tail hstep }⟩
    cases hstep with
    | unknown => exact hbefore hname
    | recursive => exact hbefore hname
    | @settle decl hdecl _ hrefs =>
      rcases (isSettled_settle _ _ _).mp hname with heq | hname
      · exact ⟨decl, r, heq, (mem_of_recordNamed? hdecl).1, hrun, hrefs, .refl⟩
      · exact hbefore hname

/-- A type that is found is given by the declarations. -/
theorem recordType_of_typeOf? (h : Reached records r) (hty : r.typeOf? name = some ty) :
    RecordType records name ty := by
  induction h generalizing name ty with
  | refl => exact absurd hty (by simp [empty, typeOf?])
  | @tail r _ _ hstep ih =>
    cases hstep with
    | unknown => exact ih hty
    | recursive => exact ih hty
    | @settle decl hdecl _ _ =>
      rw [typeOf?_settle] at hty
      by_cases heq : decl.name.name = name
      · rw [if_pos heq] at hty
        obtain ⟨fields, hfields, hnodup, rfl⟩ := RecordDecl.type?_eq_some_iff.mp hty
        rw [← heq]
        exact .intro (fun name ty => r.typeOf? name = some ty) (mem_of_recordNamed? hdecl).1
          (fun _ _ h => ih h) hfields hnodup
      · rw [if_neg heq] at hty
        exact ih hty

/-- If all that a record refers to has a type, the record has fields. -/
theorem exists_fields (h : Reached records r) {decl : RecordDecl}
    (hrefs : ∀ ref, decl.RefersTo ref → ∃ ty, r.typeOf? ref.name = some ty) :
    ∃ fields, decl.HasFields (fun name ty => r.typeOf? name = some ty) fields := by
  refine RecordDecl.exists_hasFields fun ref href => ?_
  obtain ⟨ty, hty⟩ := hrefs ref href
  obtain ⟨fields, rfl⟩ := (recordType_of_typeOf? h hty).exists_record
  exact ⟨_, fields, hty⟩

/-- What a resolvable record refers to is settled once it has been dealt with. -/
theorem Handled.isSettled {ref : Ident} (h : Handled records r ref)
    (hres : Resolvable records ref.name) : r.isSettled ref.name = true := by
  rcases h with ⟨hnone, _⟩ | ⟨hcycle, _⟩ | hsettled
  · obtain ⟨decl, hmem, hname⟩ := hres.declared _ .refl
    exact absurd hname (recordNamed?_eq_none_iff.mp hnone decl hmem)
  · exact absurd hcycle (hres.acyclic _ .refl)
  · exact hsettled

/-- **A resolvable record is settled with a type.** The one way to lose it would be a reference to
a record that waits on the path, and that lies on a cycle. -/
theorem exists_typeOf? (h : Reached records r) (hname : r.isSettled name = true)
    (hres : Resolvable records name) : ∃ ty, r.typeOf? name = some ty := by
  induction h generalizing name with
  | refl => exact absurd hname (by simp [empty, Resolution.isSettled])
  | @tail r _ hrun hstep ih =>
    cases hstep with
    | unknown => exact ih hname hres
    | recursive => exact ih hname hres
    | @settle decl hdecl hnew hrefs =>
      rw [typeOf?_settle]
      by_cases heq : decl.name.name = name
      · subst heq
        have hmem := (mem_of_recordNamed? hdecl).1
        -- What the record refers to is resolvable too, so it has been settled before, with a type.
        have htyped : ∀ ref, decl.RefersTo ref → ∃ ty, r.typeOf? ref.name = some ty := by
          intro ref href
          have hres' := hres.refers ⟨decl, hmem, rfl, ref, href, rfl⟩
          exact ih ((hrefs ref href).isSettled hres') hres'
        obtain ⟨fields, hfields⟩ := exists_fields hrun htyped
        have hflat := hfields.flattensTo fun other fs m hty =>
          (recordType_of_typeOf? hrun hty).flattensTo m fs rfl
        rw [if_pos rfl]
        exact ⟨_, RecordDecl.type?_eq_some_iff.mpr
          ⟨fields, hfields, hres.distinct decl hmem .refl _ hflat, rfl⟩⟩
      · rw [if_neg heq]
        rcases (isSettled_settle _ _ _).mp hname with heq' | hname
        · exact absurd heq' heq
        · exact ih hname hres

/-- As long as nothing is reported, every record is settled with a type. -/
theorem exists_typeOf?_of_quiet (h : Reached records r) (hquiet : r.reports = [])
    (hname : r.isSettled name = true) : ∃ ty, r.typeOf? name = some ty := by
  induction h generalizing name with
  | refl => exact absurd hname (by simp [empty, Resolution.isSettled])
  | @tail r _ hrun hstep ih =>
    cases hstep with
    | unknown => exact absurd hquiet (by simp [report])
    | recursive => exact absurd hquiet (by simp [report])
    | @settle decl hdecl hnew hrefs =>
      rw [settle_eq] at hquiet
      obtain ⟨hquiet, hmalformed⟩ := List.append_eq_nil_iff.mp hquiet
      rw [typeOf?_settle]
      by_cases heq : decl.name.name = name
      · have htyped : ∀ ref, decl.RefersTo ref → ∃ ty, r.typeOf? ref.name = some ty := by
          intro ref href
          rcases hrefs ref href with ⟨_, hrep⟩ | ⟨_, hrep⟩ | hsettled
          · rw [hquiet] at hrep; exact absurd hrep (by simp)
          · rw [hquiet] at hrep; exact absurd hrep (by simp)
          · exact ih hquiet hsettled
        obtain ⟨fields, hfields⟩ := exists_fields hrun htyped
        rw [if_pos heq]
        cases hrecord : Ty.record? (some decl.name.name) fields with
        | ok ty =>
          obtain ⟨hdistinct, _⟩ := Ty.record?_eq_ok_iff.mp hrecord
          exact ⟨_, RecordDecl.type?_eq_some_iff.mpr ⟨fields, hfields, hdistinct, rfl⟩⟩
        | error cause =>
          have := RecordDecl.mem_malformed_iff.mpr ⟨fields, cause, hfields, hrecord, rfl⟩
          rw [hmalformed] at this
          exact absurd this (by simp)
      · rw [if_neg heq]
        rcases (isSettled_settle _ _ _).mp hname with heq' | hname
        · exact absurd heq' heq
        · exact ih hquiet hname

/-! ## Reports -/

/-- What the search may report, by the declarations alone. -/
inductive Justified (records : List RecordDecl) : Diagnostic → Prop
  | unknown {decl : RecordDecl} {ref : Ident} (hmem : decl ∈ records) (href : decl.RefersTo ref)
      (hnone : recordNamed? records ref.name = none) :
      Justified records (.unknownType ref.name ref.span)
  | recursive {decl : RecordDecl} {ref : Ident} (hmem : decl ∈ records) (href : decl.RefersTo ref)
      (hcycle : TransGen (Refers records) ref.name ref.name) :
      Justified records (.recursiveRecord ref.name ref.span)
  | malformed {decl : RecordDecl} {fields : List (Field Ty)} {cause : Malformed}
      (hmem : decl ∈ records) (hfields : decl.HasFields (RecordType records) fields)
      (hcause : Ty.record? (some decl.name.name) fields = .error cause) :
      Justified records (.malformedType decl.name.name cause decl.name.span)

theorem justified_of_mem_reports (h : Reached records r) {d : Diagnostic} (hd : d ∈ r.reports) :
    Justified records d := by
  induction h with
  | refl => exact absurd hd (by simp [empty])
  | tail hrun hstep ih =>
    cases hstep with
    | unknown hmem href hnone =>
      rcases mem_reports_report.mp hd with hd | rfl
      · exact ih hd
      · exact .unknown hmem href hnone
    | recursive hmem href hcycle =>
      rcases mem_reports_report.mp hd with hd | rfl
      · exact ih hd
      · exact .recursive hmem href hcycle
    | settle hdecl _ _ =>
      rcases mem_reports_settle.mp hd with hd | hd
      · exact ih hd
      · obtain ⟨fields, cause, hfields, hcause, rfl⟩ := RecordDecl.mem_malformed_iff.mp hd
        exact .malformed (mem_of_recordNamed? hdecl).1
          (hfields.mono fun _ _ _ => recordType_of_typeOf? hrun) hcause

theorem mem_reports_of_unknown (hnodup : (records.map fun decl => decl.name.name).Nodup)
    (h : Reached records r) {decl : RecordDecl} (hmem : decl ∈ records)
    (hname : r.isSettled decl.name.name = true) {ref : Ident} (href : decl.RefersTo ref)
    (hnone : recordNamed? records ref.name = none) :
    .unknownType ref.name ref.span ∈ r.reports := by
  obtain ⟨decl', r', heq, hsettled⟩ := exists_settledAt h hname
  obtain rfl := decl_unique hnodup hsettled.mem hmem heq
  apply steps_mem_reports hsettled.later
  apply mem_reports_settle.mpr
  rcases hsettled.handled ref href with ⟨_, hrep⟩ | ⟨hcycle, _⟩ | hother
  · exact Or.inl hrep
  · obtain ⟨_, ⟨other, hother, hsame, _⟩, _⟩ := TransGen.head'_iff.mp hcycle
    exact absurd hsame (recordNamed?_eq_none_iff.mp hnone other hother)
  · obtain ⟨other, _, hsame, hearlier⟩ := exists_settledAt hsettled.reached hother
    exact absurd hsame (recordNamed?_eq_none_iff.mp hnone other hearlier.mem)

theorem mem_reports_of_malformed (hnodup : (records.map fun decl => decl.name.name).Nodup)
    (h : Reached records r) {decl : RecordDecl} (hmem : decl ∈ records)
    (hname : r.isSettled decl.name.name = true) {fields : List (Field Ty)}
    (hfields : decl.HasFields (RecordType records) fields) {cause : Malformed}
    (hcause : Ty.record? (some decl.name.name) fields = .error cause) :
    .malformedType decl.name.name cause decl.name.span ∈ r.reports := by
  obtain ⟨decl', r', heq, hsettled⟩ := exists_settledAt h hname
  obtain rfl := decl_unique hnodup hsettled.mem hmem heq
  -- The types that the fields need are all there when the record is settled.
  have hknown : ∀ ref, decl'.RefersTo ref → ∀ ty, RecordType records ref.name ty →
      r'.typeOf? ref.name = some ty := by
    intro ref href ty hty
    have hres := hty.resolvable hnodup
    have hknown' := (hsettled.handled ref href).isSettled hres
    obtain ⟨ty', hty'⟩ := exists_typeOf? hsettled.reached hknown' hres
    rw [hty', hty.unique hnodup (recordType_of_typeOf? hsettled.reached hty')]
  apply steps_mem_reports hsettled.later
  apply mem_reports_settle.mpr
  exact Or.inr (RecordDecl.mem_malformed_iff.mpr
    ⟨fields, cause, hfields.mono hknown, hcause, rfl⟩)

theorem cycle_of_mem_reports (h : Reached records r) {span : Span}
    (hd : .recursiveRecord name span ∈ r.reports) : TransGen (Refers records) name name := by
  cases justified_of_mem_reports h hd with
  | recursive _ _ hcycle => exact hcycle

/-- As long as no cycle is reported, no settled record lies on one: of the records on a cycle, the
first one to be settled would have to refer to one that is settled before it. -/
theorem acyclic_of_quiet (hnodup : (records.map fun decl => decl.name.name).Nodup)
    (h : Reached records r) (hquiet : ∀ name span, .recursiveRecord name span ∉ r.reports)
    (hname : r.isSettled name = true) : ¬ TransGen (Refers records) name name := by
  induction h generalizing name with
  | refl => exact absurd hname (by simp [empty, Resolution.isSettled])
  | @tail r _ hrun hstep ih =>
    have hquiet' : ∀ name span, .recursiveRecord name span ∉ r.reports :=
      fun name span hrep => hquiet name span (hstep.mem_reports hrep)
    cases hstep with
    | unknown => exact ih hquiet' hname
    | recursive => exact ih hquiet' hname
    | settle hdecl hnew hrefs =>
      rcases (isSettled_settle _ _ _).mp hname with rfl | hname
      · intro hcycle
        obtain ⟨next, ⟨decl', hmem', hsame, ref, href, rfl⟩, hback⟩ := TransGen.head'_iff.mp hcycle
        have hmem := (mem_of_recordNamed? hdecl).1
        obtain rfl := decl_unique hnodup hmem' hmem hsame
        -- The next record on the cycle has been dealt with before this one.
        have hcycle' : TransGen (Refers records) ref.name ref.name :=
          TransGen.tail' hback ⟨_, hmem, rfl, ref, href, rfl⟩
        rcases hrefs ref href with ⟨hnone, _⟩ | ⟨_, hrep⟩ | hsettled
        · obtain ⟨_, ⟨other, hother, hsame', _⟩, _⟩ := TransGen.head'_iff.mp hcycle'
          exact recordNamed?_eq_none_iff.mp hnone other hother hsame'
        · exact hquiet' _ _ hrep
        · exact ih hquiet' hsettled hcycle'
      · exact ih hquiet' hname

/-! ## All records -/

/-- Visits of records that are not referred to, one after another. -/
theorem foldl_visit_roots (todo : List RecordDecl) (hsub : ∀ decl ∈ todo, decl ∈ records)
    (r : Resolution) :
    ReflTransGen (Step records) r (todo.foldl (fun r decl => r.visit records [] decl.name) r) ∧
      ∀ decl ∈ todo, (todo.foldl (fun r decl => r.visit records [] decl.name) r).isSettled
        decl.name.name = true := by
  induction todo generalizing r with
  | nil => exact ⟨.refl, by simp⟩
  | cons decl rest ih =>
    have hsome : (recordNamed? records decl.name.name).isSome = true := by
      rw [Option.isSome_iff_ne_none, ne_eq, recordNamed?_eq_none_iff]
      exact fun hnone => hnone decl (hsub decl List.mem_cons_self) rfl
    have hvisit := visit_steps [] r decl.name ⟨by simp, by simp, Or.inr ⟨rfl, hsome⟩⟩
    obtain ⟨hsteps, hrest⟩ := ih (fun decl' h => hsub decl' (List.mem_cons_of_mem _ h))
      (visit records [] r decl.name)
    refine ⟨hvisit.steps.trans hsteps, fun decl' hmem => ?_⟩
    rcases List.mem_cons.mp hmem with rfl | hmem
    · rcases hvisit.followed with ⟨hnone, _⟩ | ⟨hpath, _⟩ | hsettled
      · rw [hnone] at hsome
        exact absurd hsome (by simp)
      · exact absurd hpath (by simp)
      · exact steps_isSettled hsteps hsettled
    · exact hrest decl' hmem

/-- The search makes a run and settles every record. -/
theorem all_reached (records : List RecordDecl) :
    Reached records (all records) ∧
      ∀ decl ∈ records, (all records).isSettled decl.name.name = true :=
  foldl_visit_roots records (fun _ h => h) empty

variable (hnodup : (records.map fun decl => decl.name.name).Nodup)
include hnodup

/-- A record has a type exactly if it is resolvable. -/
theorem resolvable_iff : Resolvable records name ↔ ∃ ty, RecordType records name ty := by
  constructor
  · intro h
    obtain ⟨decl, hmem, rfl⟩ := h.declared _ .refl
    obtain ⟨hrun, hsettled⟩ := all_reached records
    obtain ⟨ty, hty⟩ := exists_typeOf? hrun (hsettled decl hmem) h
    exact ⟨ty, recordType_of_typeOf? hrun hty⟩
  · intro h
    obtain ⟨ty, hty⟩ := h
    exact hty.resolvable hnodup

/-- **The types found are those that the declarations give.** -/
theorem typeOf?_all_eq_some_iff :
    (all records).typeOf? name = some ty ↔ RecordType records name ty := by
  obtain ⟨hrun, hsettled⟩ := all_reached records
  constructor
  · exact recordType_of_typeOf? hrun
  · intro h
    have hres := h.resolvable hnodup
    obtain ⟨decl, hmem, hname⟩ := hres.declared _ .refl
    obtain ⟨ty', hty'⟩ := exists_typeOf? hrun (hname ▸ hsettled decl hmem) hres
    rw [hty', h.unique hnodup (recordType_of_typeOf? hrun hty')]

theorem unknownType_mem_all_iff {span : Span} :
    .unknownType name span ∈ (all records).reports ↔
      ∃ decl ∈ records, decl.RefersTo ⟨name, span⟩ ∧ recordNamed? records name = none := by
  obtain ⟨hrun, hsettled⟩ := all_reached records
  constructor
  · intro h
    cases justified_of_mem_reports hrun h with
    | unknown hmem href hnone => exact ⟨_, hmem, href, hnone⟩
  · intro h
    obtain ⟨decl, hmem, href, hnone⟩ := h
    exact mem_reports_of_unknown hnodup hrun hmem (hsettled decl hmem) href hnone

theorem malformedType_mem_all_iff {cause : Malformed} {span : Span} :
    .malformedType name cause span ∈ (all records).reports ↔
      ∃ decl ∈ records, decl.name = ⟨name, span⟩ ∧ ∃ fields,
        decl.HasFields (RecordType records) fields ∧
          Ty.record? (some name) fields = .error cause := by
  obtain ⟨hrun, hsettled⟩ := all_reached records
  constructor
  · intro h
    cases justified_of_mem_reports hrun h with
    | malformed hmem hfields hcause => exact ⟨_, hmem, rfl, _, hfields, hcause⟩
  · intro h
    obtain ⟨decl, hmem, hname, fields, hfields, hcause⟩ := h
    have hdecl : name = decl.name.name ∧ span = decl.name.span := by rw [hname]; exact ⟨rfl, rfl⟩
    obtain ⟨rfl, rfl⟩ := hdecl
    exact mem_reports_of_malformed hnodup hrun hmem (hsettled decl hmem) hfields hcause

/-- Some cycle is reported exactly if there is one. -/
theorem exists_recursiveRecord_mem_all_iff :
    (∃ name span, .recursiveRecord name span ∈ (all records).reports) ↔
      ∃ name, TransGen (Refers records) name name := by
  obtain ⟨hrun, hsettled⟩ := all_reached records
  constructor
  · intro h
    obtain ⟨name, span, hrep⟩ := h
    exact ⟨name, cycle_of_mem_reports hrun hrep⟩
  · intro h
    obtain ⟨name, hcycle⟩ := h
    by_contra hquiet
    simp only [not_exists] at hquiet
    obtain ⟨_, ⟨decl, hmem, hname, _⟩, _⟩ := TransGen.head'_iff.mp hcycle
    exact acyclic_of_quiet hnodup hrun hquiet (hname ▸ hsettled decl hmem) hcycle

/-- Nothing is reported exactly if every record is resolvable. -/
theorem reports_all_eq_nil_iff :
    (all records).reports = [] ↔ ∀ decl ∈ records, Resolvable records decl.name.name := by
  obtain ⟨hrun, hsettled⟩ := all_reached records
  constructor
  · intro hquiet decl hmem
    obtain ⟨ty, hty⟩ := exists_typeOf?_of_quiet hrun hquiet (hsettled decl hmem)
    exact (recordType_of_typeOf? hrun hty).resolvable hnodup
  · intro hres
    rw [List.eq_nil_iff_forall_not_mem]
    intro d hd
    cases justified_of_mem_reports hrun hd with
    | unknown hmem href hnone =>
      obtain ⟨other, hother, hname⟩ :=
        (hres _ hmem).declared _ (.single ⟨_, hmem, rfl, _, href, rfl⟩)
      exact recordNamed?_eq_none_iff.mp hnone other hother hname
    | recursive hmem href hcycle =>
      obtain ⟨_, ⟨decl, hmem, hname, _⟩, _⟩ := TransGen.head'_iff.mp hcycle
      exact (hres decl hmem).acyclic decl.name.name .refl (hname ▸ hcycle)
    | malformed hmem hfields hcause =>
      have hflat := hfields.flattensTo fun other fs m hty => hty.flattensTo m fs rfl
      have hdistinct := (hres _ hmem).distinct _ hmem .refl _ hflat
      rw [Ty.record?_eq_ok_iff.mpr ⟨hdistinct, rfl⟩] at hcause
      exact absurd hcause (by simp)

end Resolution

/-- Where all records are resolvable, an annotation that mentions records only denotes a type. -/
theorem exists_denotes_of_resolvable {records : List RecordDecl}
    (hnodup : (records.map fun decl => decl.name.name).Nodup)
    (hres : ∀ decl ∈ records, Resolvable records decl.name.name) {form : TyForm}
    (hmentions : ∀ ident, form.Mentions ident → ∃ decl ∈ records, decl.name.name = ident.name) :
    ∃ ty, form.Denotes (RecordType records) ty := by
  apply TyForm.exists_denotes_iff.mpr
  intro ident hident
  obtain ⟨decl, hmem, hname⟩ := hmentions ident hident
  rw [← hname]
  exact (Resolution.resolvable_iff hnodup).mp (hres decl hmem)

end Conform
