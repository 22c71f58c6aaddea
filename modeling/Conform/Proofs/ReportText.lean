import Conform.Proofs.Paths
import Conform.Proofs.Reader
import Conform.Report
import Mathlib.Data.List.Forall2

/-!
# What a report says

A report is read back as an array with one object for each finding, in the order of the findings
(`report_reads_back`). What the objects hold is said by `Diagnostic.ShownAs`, form by form, and not
by the function that builds them. Names, keys and types come into a report as they are, so they may
be any text.

Nothing that a finding tells about itself is lost: two lists have the same report only if they
agree, finding by finding, in code, message, place, expected type, found text and path. The path is
the one part of this that a report does not hold as it is. It is left out at the root, where an
object still has an expected type, and everywhere else it is known from its text
(`pathText_injective`).
-/

namespace Conform

namespace Diagnostic

/-! ## The object of a finding -/

/-- The members that the object of every finding has. -/
def commonMembers (d : Diagnostic) : List (String × Json) :=
  [("code", .str d.code), ("message", .str d.message), ("start", .nat d.span.start.toNat),
    ("end", .nat d.span.stop.toNat)]

/-- The object by which a finding is shown. Only a mismatch has more members than the common ones,
and only away from the root a path. -/
inductive ShownAs : Diagnostic → Json → Prop
  | other {d : Diagnostic}
      (h : ∀ expected found cause span, d ≠ .mismatch expected found cause span) :
      ShownAs d (.obj d.commonMembers)
  | atRoot (expected : Ty) (found : String) (reason : Reason) (span : Span) :
      ShownAs (.mismatch expected found ⟨reason, []⟩ span)
        (.obj (commonMembers (.mismatch expected found ⟨reason, []⟩ span) ++
          [("expected", .str expected.render), ("actual", .str found)]))
  | within (expected : Ty) (found : String) (reason : Reason) {path : List Segment}
      (h : path ≠ []) (span : Span) :
      ShownAs (.mismatch expected found ⟨reason, path⟩ span)
        (.obj (commonMembers (.mismatch expected found ⟨reason, path⟩ span) ++
          [("expected", .str expected.render), ("actual", .str found),
            ("path", .str (pathText path))]))

theorem shownAs_toJson (d : Diagnostic) : d.ShownAs d.toJson := by
  cases d with
  | mismatch expected found cause span =>
    obtain ⟨reason, path⟩ := cause
    cases path with
    | nil => exact .atRoot expected found reason span
    | cons segment path => exact .within expected found reason (List.cons_ne_nil segment path) span
  | _ => exact .other (by simp)

theorem isWhole_toJson (d : Diagnostic) : d.toJson.IsWhole := by
  have hdetail : ∀ member ∈ d.detail, ∃ text, member.2 = .str text := by
    intro member hmember
    obtain ⟨⟨key, text?⟩, _, hmember⟩ := List.mem_filterMap.mp hmember
    obtain ⟨text, _, rfl⟩ := Option.map_eq_some_iff.mp hmember
    exact ⟨text, rfl⟩
  refine .obj fun member hmember => ?_
  rcases List.mem_append.mp hmember with hcommon | hmember
  · simp only [List.mem_cons, List.not_mem_nil, or_false] at hcommon
    rcases hcommon with rfl | rfl | rfl | rfl
    · exact .str _
    · exact .str _
    · exact .nat _
    · exact .nat _
  · obtain ⟨text, htext⟩ := hdetail member hmember
    exact htext ▸ .str text

/-! ## What is known from it -/

/-- Two findings tell the same about themselves. -/
structure TellsSame (d d' : Diagnostic) : Prop where
  code : d.code = d'.code
  message : d.message = d'.message
  span : d.span = d'.span
  expected : d.expected? = d'.expected?
  found : d.found? = d'.found?
  path : d.path? = d'.path?

/-- The text of the path that is shown of a finding. -/
def shownPath? (d : Diagnostic) : Option String :=
  (d.path?.filter fun path => !path.isEmpty).map pathText

theorem get?_toJson (d : Diagnostic) :
    d.toJson.get? "expected" = d.expected?.map .str ∧ d.toJson.get? "actual" = d.found?.map .str ∧
      d.toJson.get? "path" = d.shownPath?.map .str := by
  unfold toJson detail
  rw [← shownPath?]
  cases d.expected? <;> cases d.found? <;> cases d.shownPath? <;> exact ⟨rfl, rfl, rfl⟩

theorem isSome_path? (d : Diagnostic) : d.path?.isSome = d.expected?.isSome := by
  cases d <;> rfl

/-- The path that is shown is the one there is, and that none is shown of a mismatch means that it
is one of the whole. -/
theorem path?_eq_of_shownPath?_eq {d d' : Diagnostic} (hexpected : d.expected? = d'.expected?)
    (h : d.shownPath? = d'.shownPath?) : d.path? = d'.path? := by
  have hsome : d.path?.isSome = d'.path?.isSome := by
    rw [isSome_path?, isSome_path?, hexpected]
  have hfilter := Option.map_injective pathText_injective h
  cases hpath : d.path? with
  | none =>
    rw [hpath, Option.isSome_none, eq_comm, Option.isSome_eq_false_iff, Option.isNone_iff_eq_none]
      at hsome
    exact hsome.symm
  | some path =>
    rw [hpath, Option.isSome_some, eq_comm, Option.isSome_iff_exists] at hsome
    obtain ⟨path', hpath'⟩ := hsome
    rw [hpath, hpath'] at hfilter
    rw [hpath']
    cases path <;> cases path' <;> simp_all [Option.filter]

theorem toJson_eq_iff {d d' : Diagnostic} : d.toJson = d'.toJson ↔ d.TellsSame d' := by
  constructor
  · intro h
    obtain ⟨hexpected, hfound, hpath⟩ := d.get?_toJson
    obtain ⟨hexpected', hfound', hpath'⟩ := d'.get?_toJson
    have hstr : Function.Injective Json.str := fun _ _ => Json.str.inj
    rw [h, hexpected'] at hexpected
    rw [h, hfound'] at hfound
    rw [h, hpath'] at hpath
    have hexpected := Option.map_injective hstr hexpected.symm
    have hcommon := Json.obj.inj h
    simp only [List.cons_append, List.nil_append, List.cons.injEq, Prod.mk.injEq, true_and,
      Json.str.injEq, Json.nat.injEq, UInt64.toNat_inj] at hcommon
    obtain ⟨hcode, hmessage, hstart, hstop, _⟩ := hcommon
    exact {
      code := hcode
      message := hmessage
      span := by rw [Span.mk.injEq]; exact ⟨hstart, hstop⟩
      expected := hexpected
      found := Option.map_injective hstr hfound.symm
      path := path?_eq_of_shownPath?_eq hexpected (Option.map_injective hstr hpath.symm) }
  · intro h
    simp only [toJson, detail, h.code, h.message, h.span, h.expected, h.found, h.path]

end Diagnostic

/-! ## The report -/

theorem isWhole_report (ds : List Diagnostic) : (Json.arr (ds.map Diagnostic.toJson)).IsWhole := by
  refine .arr fun value hvalue => ?_
  obtain ⟨d, _, rfl⟩ := List.mem_map.mp hvalue
  exact d.isWhole_toJson

theorem read?_report (ds : List Diagnostic) :
    Json.read? (report ds) = some (.arr (ds.map Diagnostic.toJson)) :=
  Json.read?_indented (isWhole_report ds)

/-- The end of its last line makes no difference to a report. -/
theorem read?_report_line (ds : List Diagnostic) :
    Json.read? (report ds ++ "\n") = some (.arr (ds.map Diagnostic.toJson)) := by
  have htokens : (Json.layout 0 (.arr (ds.map Diagnostic.toJson)) ++ [Json.Lexeme.line 0]).filterMap
      Json.Lexeme.token? = (Json.arr (ds.map Diagnostic.toJson)).tokens := by
    rw [List.filterMap_append, Json.filterMap_layout]
    exact List.append_nil _
  have hread := Json.read?_of_tokens (isWhole_report ds) htokens
  rw [List.flatMap_append, String.ofList_append] at hread
  exact hread

/-- A report is read as the objects of its findings, in their order, and it tells all that the
findings tell. -/
theorem report_reads_back (ds : List Diagnostic) :
    (∃ objects, Json.read? (report ds) = some (.arr objects) ∧
      List.Forall₂ Diagnostic.ShownAs ds objects) ∧
    ∀ ds', report ds = report ds' ↔ List.Forall₂ Diagnostic.TellsSame ds ds' := by
  refine ⟨⟨_, read?_report ds, ?_⟩, fun ds' => ?_⟩
  · rw [List.forall₂_map_right_iff, List.forall₂_same]
    exact fun d _ => d.shownAs_toJson
  · have hobjects : report ds = report ds' ↔
        ds.map Diagnostic.toJson = ds'.map Diagnostic.toJson := by
      refine ⟨fun h => ?_, fun h => by rw [report, report, h]⟩
      have hread := read?_report ds
      rw [h, read?_report, Option.some.injEq, Json.arr.injEq] at hread
      exact hread.symm
    rw [hobjects, ← List.forall₂_eq_eq_eq, List.forall₂_map_left_iff, List.forall₂_map_right_iff]
    simp only [Diagnostic.toJson_eq_iff]

end Conform
