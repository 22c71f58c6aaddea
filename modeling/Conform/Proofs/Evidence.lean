import Conform.Proofs.Assignable

/-!
# What a mismatch says of two types

A mismatch is a reason and a path. The path is built from the inside out while the two types change
places under every parameter, so it is not evident that it leads anywhere. It does: from the two
types that are compared it can be followed to the two parts where the reason holds, and everything
that is compared before them is accepted. **The search answers with exactly this reason and this
path** (`Ty.mismatch?_eq_some_iff_follows`); there is no other one of which the same could be said,
and nothing is ever found extra.

A search that descends is described once and for all by `Explains`: how it goes on from one place
to the next one, and what it finds where it stops. Both are facts about a single step, and the run
follows from them by induction on the path.
-/

namespace Conform

theorem findSome?_zipIdx_eq_some_iff {α β : Type} {f : α × Nat → Option β} {as : List α} {b : β} :
    as.zipIdx.findSome? f = some b ↔
      ∃ i, ∃ h : i < as.length, f (as[i], i) = some b ∧ ∀ j (hj : j < i), f (as[j], j) = none := by
  rw [List.findSome?_eq_some_iff]
  constructor
  · intro h
    obtain ⟨before, ⟨a, i⟩, after, hsplit, hfound, hbefore⟩ := h
    obtain ⟨as₁, as₂, rfl, rfl, hrest⟩ := List.zipIdx_eq_append_iff.mp hsplit
    cases as₂ with
    | nil => cases hrest
    | cons a' as₂ =>
      rw [List.zipIdx_cons] at hrest
      obtain ⟨hhead, rfl⟩ := List.cons.inj hrest
      obtain ⟨rfl, rfl⟩ := Prod.mk.inj hhead
      rw [Nat.zero_add] at hfound
      refine ⟨as₁.length, by simp, by simpa using hfound, fun j hj => ?_⟩
      apply hbefore
      rw [List.mem_zipIdx_iff_getElem?]
      simp [hj]
  · intro h
    obtain ⟨i, hi, hfound, hbefore⟩ := h
    have hi' : i < as.zipIdx.length := by rw [List.length_zipIdx]; exact hi
    refine ⟨as.zipIdx.take i, (as[i], i), as.zipIdx.drop (i + 1), ?_, hfound, ?_⟩
    · have hsplit := List.take_append_drop i as.zipIdx
      rw [List.drop_eq_getElem_cons hi', List.getElem_zipIdx, Nat.zero_add] at hsplit
      exact hsplit.symm
    · intro entry hentry
      obtain ⟨j, hj, rfl⟩ := List.getElem_of_mem hentry
      rw [List.length_take] at hj
      simpa using hbefore j (by omega)

/-! ## Searches that descend -/

/-- A path leads from one place to another one, segment by segment. -/
inductive Follows {α : Type} (next : α → Segment → α → Prop) : α → List Segment → α → Prop
  | here (place : α) : Follows next place [] place
  | next {place between last : α} {segment : Segment} {path : List Segment}
      (h : next place segment between) (hrest : Follows next between path last) :
      Follows next place (segment :: path) last

/-- What a search finds at a place is what it finds at a next one, with the way there before it. -/
abbrev FoundNext {α : Type} (search : α → Option Mismatch) (next : α → Segment → α → Prop)
    (place : α) (found : Mismatch) : Prop :=
  ∃ segment between inner, next place segment between ∧ search between = some inner ∧
    found = inner.within segment

/-- A search either stops where it stands, for a reason with the rest of its path, or it goes on to
the next place and gives what it finds there. -/
structure Explains {α : Type} (search : α → Option Mismatch) (next : α → Segment → α → Prop)
    (stops : α → Mismatch → Prop) : Prop where
  search_of_stops : ∀ place found, stops place found → search place = some found
  search_of_next : ∀ place segment between found, next place segment between →
    search between = some found → search place = some (found.within segment)
  stops_or_next : ∀ place found, search place = some found →
    stops place found ∨ FoundNext search next place found

namespace Explains

variable {α : Type} {search : α → Option Mismatch} {next : α → Segment → α → Prop}
  {stops : α → Mismatch → Prop} (h : Explains search next stops)

include h

theorem search_of_follows {place last : α} {path : List Segment}
    (hpath : Follows next place path last) {found : Mismatch} (hstops : stops last found) :
    search place = some ⟨found.reason, path ++ found.path⟩ := by
  induction hpath with
  | here place => exact h.search_of_stops place found hstops
  | next hnext _ ih => exact h.search_of_next _ _ _ _ hnext (ih hstops)

theorem exists_follows (place : α) {reason : Reason} {path : List Segment}
    (hfound : search place = some ⟨reason, path⟩) :
    ∃ last front rest, path = front ++ rest ∧ Follows next place front last ∧
      stops last ⟨reason, rest⟩ := by
  induction path generalizing place with
  | nil =>
    rcases h.stops_or_next _ _ hfound with hstops | ⟨_, _, _, _, _, heq⟩
    · exact ⟨place, [], [], rfl, .here place, hstops⟩
    · exact absurd (congrArg Mismatch.path heq) (by simp [Mismatch.within])
  | cons segment path ih =>
    rcases h.stops_or_next _ _ hfound with hstops | ⟨segment', between, inner, hnext, hinner, heq⟩
    · exact ⟨place, [], segment :: path, rfl, .here place, hstops⟩
    · obtain ⟨reason', path'⟩ := inner
      obtain ⟨rfl, hpath⟩ := Mismatch.mk.inj heq
      obtain ⟨rfl, rfl⟩ := List.cons.inj hpath
      obtain ⟨last, front, rest, rfl, hfollows, hstops⟩ := ih between hinner
      exact ⟨last, segment :: front, rest, rfl, .next hnext hfollows, hstops⟩

/-- What is found is found where its path leads. -/
theorem search_eq_some_iff (place : α) (reason : Reason) (path : List Segment) :
    search place = some ⟨reason, path⟩ ↔
      ∃ last front rest, path = front ++ rest ∧ Follows next place front last ∧
        stops last ⟨reason, rest⟩ := by
  constructor
  · exact h.exists_follows place
  · intro hlast
    obtain ⟨last, front, rest, rfl, hfollows, hstops⟩ := hlast
    exact h.search_of_follows hfollows hstops

end Explains

/-! ## The comparison of two types -/

/-- The fields `actual` have what one field of the expected record asks for. -/
def Field.Met (w : Widening) (actual : List (Field Ty)) (field : Field Ty) : Prop :=
  (field.required = true →
    ∃ other, fieldNamed? actual field.name = some other ∧ other.required = true) ∧
  ∀ other, fieldNamed? actual field.name = some other → Assignable w field.ty other.ty

theorem Field.mismatch?_eq_none_iff_met {w : Widening} {field : Field Ty}
    {actual : List (Field Ty)} : field.mismatch? w actual = none ↔ field.Met w actual := by
  simp only [Field.mismatch?_eq_none_iff, Conform.mismatch?_eq_none_iff, Field.Met]

theorem Field.mismatch?_eq_some_iff {w : Widening} {field : Field Ty} {actual : List (Field Ty)}
    {found : Mismatch} :
    field.mismatch? w actual = some found ↔
      (field.required = true ∧ (∀ other ∈ actual, other.name ≠ field.name) ∧
        found = ⟨.missingKey field.name, [.field field.name]⟩) ∨
      ∃ other, fieldNamed? actual field.name = some other ∧
        ((field.required = true ∧ other.required = false ∧
          found = ⟨.optionalKey field.name, [.field field.name]⟩) ∨
        (field.required = true → other.required = true) ∧
          ∃ inner, field.ty.mismatch? w other.ty = some inner ∧
            found = inner.within (.field field.name)) := by
  have habsent : fieldNamed? actual field.name = none ↔
      ∀ other ∈ actual, other.name ≠ field.name := by
    simp [fieldNamed?, List.find?_eq_none]
  unfold Field.mismatch?
  rw [← habsent]
  cases fieldNamed? actual field.name with
  | none => cases field.required <;> simp [Reason.atRoot, Mismatch.within, eq_comm (b := found)]
  | some other =>
    cases field.required <;> cases hother : other.required <;>
      simp [Reason.atRoot, Mismatch.within, eq_comm (b := found), hother]

/-- What is found against a scalar, if anything is. -/
theorem Scalar.mismatch?_eq_some_iff {w : Widening} {expected actual : Scalar} {found : Mismatch} :
    expected.mismatch? w actual = some found ↔
      w.permits actual expected = false ∧
        found = (Reason.incompatible expected.keyword actual.keyword).atRoot := by
  unfold Scalar.mismatch?
  cases w.permits actual expected <;> simp [eq_comm]

namespace Ty

variable {w : Widening}

/-- The comparison of an expected type with another one goes on to two of their parts, once it has
found nothing against any part before them. Under a parameter the two sides change places. -/
inductive Descends (w : Widening) : Ty × Ty → Segment → Ty × Ty → Prop
  | field {m n : Option String} {before after actual : List (Field Ty)} {field other : Field Ty}
      (hbefore : ∀ earlier ∈ before, earlier.Met w actual)
      (hother : fieldNamed? actual field.name = some other)
      (hrequired : field.required = true → other.required = true) :
      Descends w (.record m (before ++ field :: after), .record n actual) (.field field.name)
        (field.ty, other.ty)
  | argument {expected actual : List (Param Ty)} {returns returns' : Ty} {i : Nat}
      (harity : expected.length = actual.length) (hi : i < expected.length)
      (hi' : i < actual.length)
      (hbefore : ∀ j (hj : j < i), Assignable w actual[j].ty expected[j].ty) :
      Descends w (.callable expected returns, .callable actual returns') (.argument i)
        (actual[i].ty, expected[i].ty)
  | result {expected actual : List (Param Ty)} {returns returns' : Ty}
      (harity : expected.length = actual.length)
      (hparams : ∀ i (h : i < expected.length) (h' : i < actual.length),
        Assignable w actual[i].ty expected[i].ty) :
      Descends w (.callable expected returns, .callable actual returns') .result
        (returns, returns')

/-- The comparison of an expected type with another one stops where it stands. A field that is
absent or may be missing is named by the path, since there is nothing there to compare. -/
inductive Refuses (w : Widening) : Ty × Ty → Mismatch → Prop
  | scalar {expected actual : Scalar} (h : w.permits actual expected = false) :
      Refuses w (.scalar expected, .scalar actual)
        ⟨.incompatible (Ty.scalar expected).render (Ty.scalar actual).render, []⟩
  | form {expected actual : Ty} (h : ¬ expected.SameForm actual) :
      Refuses w (expected, actual) ⟨.incompatible expected.render actual.render, []⟩
  | missing {m n : Option String} {before after actual : List (Field Ty)} {field : Field Ty}
      (hbefore : ∀ earlier ∈ before, earlier.Met w actual) (hrequired : field.required = true)
      (habsent : ∀ other ∈ actual, other.name ≠ field.name) :
      Refuses w (.record m (before ++ field :: after), .record n actual)
        ⟨.missingKey field.name, [.field field.name]⟩
  | optional {m n : Option String} {before after actual : List (Field Ty)} {field other : Field Ty}
      (hbefore : ∀ earlier ∈ before, earlier.Met w actual) (hrequired : field.required = true)
      (hother : fieldNamed? actual field.name = some other) (hoptional : other.required = false) :
      Refuses w (.record m (before ++ field :: after), .record n actual)
        ⟨.optionalKey field.name, [.field field.name]⟩
  | arity {expected actual : List (Param Ty)} {returns returns' : Ty}
      (h : expected.length ≠ actual.length) :
      Refuses w (.callable expected returns, .callable actual returns')
        ⟨.arity expected.length actual.length, []⟩

/-! ## One step -/

theorem mismatch?_record_eq_some_iff {m n : Option String} {expected actual : List (Field Ty)}
    {found : Mismatch} :
    (Ty.record m expected).mismatch? w (.record n actual) = some found ↔
      ∃ before field after, expected = before ++ field :: after ∧
        field.mismatch? w actual = some found ∧ ∀ earlier ∈ before, earlier.Met w actual := by
  rw [Ty.mismatch?_record, List.findSome?_eq_some_iff]
  simp only [Field.mismatch?_eq_none_iff_met]

theorem findSome?_params_eq_some_iff {expected actual : List (Param Ty)} {found : Mismatch} :
    ((expected.zip actual).zipIdx.findSome? fun ((param, other), index) =>
        (other.ty.mismatch? w param.ty).map (Mismatch.within (.argument index))) = some found ↔
      ∃ i, ∃ (h : i < expected.length) (h' : i < actual.length),
        (∃ inner, actual[i].ty.mismatch? w expected[i].ty = some inner ∧
          found = inner.within (.argument i)) ∧
        ∀ j (hj : j < expected.length) (hj' : j < actual.length), j < i →
          Assignable w actual[j].ty expected[j].ty := by
  rw [findSome?_zipIdx_eq_some_iff]
  simp only [List.getElem_zip, List.length_zip, Option.map_eq_some_iff, Option.map_eq_none_iff,
    mismatch?_eq_none_iff, eq_comm (b := found), Nat.lt_min]
  constructor
  · intro h
    obtain ⟨i, hi, hfound, hbefore⟩ := h
    exact ⟨i, hi.1, hi.2, hfound, fun j _ _ hj => hbefore j hj⟩
  · intro h
    obtain ⟨i, hi, hi', hfound, hbefore⟩ := h
    exact ⟨i, ⟨hi, hi'⟩, hfound, fun j hj =>
      hbefore j (Nat.lt_trans hj hi) (Nat.lt_trans hj hi') hj⟩

/-- Two records: a field is absent or may be missing, or the comparison goes on to its type. -/
theorem refuses_or_descends_record {m n : Option String} {expected actual : List (Field Ty)}
    {found : Mismatch} (h : (Ty.record m expected).mismatch? w (.record n actual) = some found) :
    Refuses w (.record m expected, .record n actual) found ∨
      FoundNext (fun types : Ty × Ty => types.1.mismatch? w types.2) (Descends w)
        (.record m expected, .record n actual) found := by
  obtain ⟨before, field, after, rfl, hfield, hbefore⟩ := mismatch?_record_eq_some_iff.mp h
  rcases Field.mismatch?_eq_some_iff.mp hfield with ⟨hrequired, habsent, rfl⟩ | ⟨other, hother, h⟩
  · exact .inl (.missing hbefore hrequired habsent)
  · rcases h with ⟨hrequired, hoptional, rfl⟩ | ⟨hmarker, inner, hinner, rfl⟩
    · exact .inl (.optional hbefore hrequired hother hoptional)
    · exact .inr ⟨_, _, inner, .field hbefore hother hmarker, hinner, rfl⟩

/-- Two callables: their arities differ, or the comparison goes on to a parameter or the result. -/
theorem refuses_or_descends_callable {expected actual : List (Param Ty)} {returns returns' : Ty}
    {found : Mismatch}
    (h : (Ty.callable expected returns).mismatch? w (.callable actual returns') = some found) :
    Refuses w (.callable expected returns, .callable actual returns') found ∨
      FoundNext (fun types : Ty × Ty => types.1.mismatch? w types.2) (Descends w)
        (.callable expected returns, .callable actual returns') found := by
  rw [Ty.mismatch?_callable] at h
  by_cases harity : expected.length = actual.length
  · rw [if_pos harity, Option.or_eq_some_iff, findSome?_params_eq_some_iff,
      findSome?_params_eq_none_iff, Option.map_eq_some_iff] at h
    rcases h with ⟨i, hi, hi', ⟨inner, hinner, rfl⟩, hbefore⟩ | ⟨hparams, inner, hinner, rfl⟩
    · exact .inr ⟨_, _, inner, .argument harity hi hi' fun j hj =>
        hbefore j (Nat.lt_trans hj hi) (Nat.lt_trans hj hi') hj, hinner, rfl⟩
    · simp only [mismatch?_eq_none_iff] at hparams
      exact .inr ⟨_, _, inner, .result harity hparams, hinner, rfl⟩
  · rw [if_neg harity] at h
    obtain rfl := Option.some.inj h
    exact .inl (.arity harity)

/-- The comparison of two types is a search that descends. -/
theorem explains_mismatch? (w : Widening) :
    Explains (fun types : Ty × Ty => types.1.mismatch? w types.2) (Descends w) (Refuses w) where
  search_of_stops types found hstops := by
    cases hstops with
    | scalar h =>
      exact (mismatch?_scalar _ _ _).trans (Scalar.mismatch?_eq_some_iff.mpr ⟨h, rfl⟩)
    | form h => exact mismatch?_of_not_sameForm h
    | missing hbefore hrequired habsent =>
      apply mismatch?_record_eq_some_iff.mpr
      exact ⟨_, _, _, rfl, Field.mismatch?_eq_some_iff.mpr
        (.inl ⟨hrequired, habsent, rfl⟩), hbefore⟩
    | optional hbefore hrequired hother hoptional =>
      apply mismatch?_record_eq_some_iff.mpr
      exact ⟨_, _, _, rfl, Field.mismatch?_eq_some_iff.mpr
        (.inr ⟨_, hother, .inl ⟨hrequired, hoptional, rfl⟩⟩), hbefore⟩
    | arity h => simp [Ty.mismatch?_callable, h, Reason.atRoot]
  search_of_next types segment between found hnext hbetween := by
    cases hnext with
    | field hbefore hother hrequired =>
      apply mismatch?_record_eq_some_iff.mpr
      exact ⟨_, _, _, rfl, Field.mismatch?_eq_some_iff.mpr
        (.inr ⟨_, hother, .inr ⟨hrequired, found, hbetween, rfl⟩⟩), hbefore⟩
    | argument harity hi hi' hbefore =>
      have hparams := findSome?_params_eq_some_iff.mpr
        ⟨_, hi, hi', ⟨found, hbetween, rfl⟩, fun j _ _ hj => hbefore j hj⟩
      simp only [Ty.mismatch?_callable, if_pos harity, hparams, Option.some_or]
    | result harity hparams =>
      simp only [← mismatch?_eq_none_iff] at hparams
      have hnone := findSome?_params_eq_none_iff.mpr hparams
      simp only [Ty.mismatch?_callable, if_pos harity, hnone, Option.none_or, hbetween,
        Option.map_some]
  stops_or_next types found hfound := by
    obtain ⟨expected, actual⟩ := types
    induction expected, actual using Ty.induct₂ with
    | scalar expected actual =>
      rw [Ty.mismatch?_scalar] at hfound
      obtain ⟨h, rfl⟩ := Scalar.mismatch?_eq_some_iff.mp hfound
      exact .inl (.scalar h)
    | record m n expected actual _ => exact refuses_or_descends_record hfound
    | callable expected actual returns returns' _ _ => exact refuses_or_descends_callable hfound
    | form expected actual h =>
      rw [mismatch?_of_not_sameForm h] at hfound
      obtain rfl := Option.some.inj hfound
      exact .inl (.form h)

/-- A mismatch of two types says where they do not fit and why, and it is the first one: its path
can be followed to two parts of them, everything before which is accepted, and there its reason
holds. Nothing is ever found to be extra. -/
theorem mismatch?_eq_some_iff_follows (w : Widening) (expected actual : Ty) (reason : Reason)
    (path : List Segment) :
    (expected.mismatch? w actual = some ⟨reason, path⟩ ↔
      ∃ e a front rest, path = front ++ rest ∧
        Follows (Descends w) (expected, actual) front (e, a) ∧ Refuses w (e, a) ⟨reason, rest⟩) ∧
    ∀ key path, expected.mismatch? w actual ≠ some ⟨.extraKey key, path⟩ := by
  have hexplains := explains_mismatch? w
  constructor
  · rw [hexplains.search_eq_some_iff (expected, actual) reason path, Prod.exists]
  · intro key path hfound
    obtain ⟨_, _, _, _, _, hrefuses⟩ := hexplains.exists_follows (expected, actual) hfound
    cases hrefuses

end Ty

end Conform
