import Conform.Proofs.Alike
import Conform.Proofs.Registered

/-!
# The order of declarations

Records and functions may stand in any order and anywhere among the statements: as long as every
name is declared once and the statements keep their order, **the check says the same**
(`check_rearranged`). Whole runs are compared here, and they differ inside: the search through the
records starts elsewhere, settles in another order and drops other repetitions.

The comparison never follows the two searches side by side. Each finding has been described by a
rule on the *set* of declarations, and both modules have the same set; so membership transfers, and
since a list of findings holds each one once, membership in both directions is a permutation.

The exception is recursion. Which record of a cycle is named depends on where the search enters the
cycle, so of these findings only their presence transfers.
-/

namespace Conform

open Relation (TransGen)

/-! ## Records with the same members -/

section Members

variable {records records' : List RecordDecl}

/-- The types of records depend on which declarations there are and not on their order. -/
theorem RecordType.of_subset (hsub : ∀ decl ∈ records, decl ∈ records') {name : String} {ty : Ty}
    (h : RecordType records name ty) : RecordType records' name ty := by
  induction h with
  | intro types hmem _ hfields hnodup ih => exact .intro types (hsub _ hmem) ih hfields hnodup

theorem cycle_of_subset (hsub : ∀ decl ∈ records, decl ∈ records') {name : String}
    (h : TransGen (Refers records) name name) : TransGen (Refers records') name name := by
  have hrefers : Refers records ≤ Refers records' := by
    intro source target href
    obtain ⟨decl, hmem, hname, href⟩ := href
    exact ⟨decl, hsub decl hmem, hname, href⟩
  exact TransGen.mono hrefers name name h

theorem recordNamed?_eq_none_congr (hmem : ∀ decl, decl ∈ records ↔ decl ∈ records')
    {name : String} : recordNamed? records name = none ↔ recordNamed? records' name = none := by
  rw [recordNamed?_eq_none_iff, recordNamed?_eq_none_iff]
  exact forall_congr' fun decl => imp_congr_left (hmem decl)

/-- What the search reports transfers, unless it is recursion. -/
theorem mem_reports_of_same (hmem : ∀ decl, decl ∈ records ↔ decl ∈ records')
    (hnodup : (records'.map fun decl => decl.name.name).Nodup) {d : Diagnostic}
    (hkind : d.isRecursive = false) (h : d ∈ (Resolution.all records).reports) :
    d ∈ (Resolution.all records').reports := by
  obtain ⟨hrun, _⟩ := Resolution.all_reached records
  cases Resolution.justified_of_mem_reports hrun h with
  | unknown hdecl href hnone =>
    exact (Resolution.unknownType_mem_all_iff hnodup).mpr
      ⟨_, (hmem _).mp hdecl, href, (recordNamed?_eq_none_congr hmem).mp hnone⟩
  | recursive => exact absurd hkind Bool.noConfusion
  | malformed hdecl hfields hcause =>
    have htypes : ∀ name ty, RecordType records name ty → RecordType records' name ty :=
      fun _ _ hty => hty.of_subset fun other hother => (hmem other).mp hother
    exact (Resolution.malformedType_mem_all_iff hnodup).mpr ⟨_, (hmem _).mp hdecl, rfl, _,
      hfields.mono fun ident _ => htypes ident.name, hcause⟩

end Members

namespace Module

/-- Two modules with the same items, the statements among them in the same order, in which every
name is declared once. -/
structure Rearranged (m m' : Module) : Prop where
  distinct : (m.declared.map Ident.name).Nodup
  perm : m.items.Perm m'.items
  statements : m.statements = m'.statements

namespace Rearranged

variable {m m' : Module} (h : m.Rearranged m')

include h

theorem declared : m.declared.Perm m'.declared :=
  h.perm.filterMap Item.declared?

theorem symm : m'.Rearranged m where
  distinct := (h.declared.map Ident.name).nodup_iff.mp h.distinct
  perm := h.perm.symm
  statements := h.statements.symm

theorem assignments : m.assignments = m'.assignments := by
  rw [assignments_eq, assignments_eq, h.statements]

theorem functions : m.functions.Perm m'.functions :=
  h.perm.filterMap _

theorem recordsInForce : m.recordsInForce.Perm m'.recordsInForce := by
  rw [recordsInForce_of_nodup h.distinct, recordsInForce_of_nodup h.symm.distinct]
  exact h.perm.filterMap _

theorem functionsInForce : m.functionsInForce.Perm m'.functionsInForce := by
  rw [functionsInForce_of_nodup h.distinct, functionsInForce_of_nodup h.symm.distinct]
  exact h.functions

/-! ## What the modules declare -/

theorem types : m.Types = m'.Types := by
  funext name ty
  refine propext ⟨fun hty => ?_, fun hty => ?_⟩
  · exact RecordType.of_subset (fun decl hdecl => h.recordsInForce.mem_iff.mp hdecl) hty
  · exact RecordType.of_subset (fun decl hdecl => h.recordsInForce.mem_iff.mpr hdecl) hty

theorem known : m.globals.known = m'.globals.known := by
  funext name
  apply Option.ext
  intro ty
  rw [known_eq_some_iff, known_eq_some_iff, h.types]

theorem identNamed? (name : String) :
    Conform.identNamed? m.declared name = Conform.identNamed? m'.declared name := by
  apply Option.ext
  intro ident
  unfold Conform.identNamed?
  rw [find?_key_eq_some_iff h.distinct, find?_key_eq_some_iff h.symm.distinct, h.declared.mem_iff]

theorem alike : m.globals.Alike m'.globals where
  known := h.known
  declares name := congrArg Option.isSome (h.identNamed? name)
  record name := by
    rw [Bool.eq_iff_iff, ← not_iff_not, Option.not_isSome_iff_eq_none,
      Option.not_isSome_iff_eq_none]
    exact recordNamed?_eq_none_congr fun decl => h.recordsInForce.mem_iff
  scope :=
    { record? := fun name => by
        apply Option.ext
        intro entry
        simp only [record?_globals_iff, h.recordsInForce.mem_iff, h.types]
      function? := fun name => by
        apply Option.ext
        intro entry
        simp only [function?_globals_iff, h.functionsInForce.mem_iff, h.types]
      local? := fun name => by
        rw [local?_globals, local?_globals, h.identNamed?, h.assignments, h.known]
      isPoisoned := fun name => by
        rw [Bool.eq_iff_iff]
        simp only [isPoisoned_globals_iff, h.recordsInForce.mem_iff, h.functionsInForce.mem_iff,
          h.types] }

/-! ## What is found -/

theorem globalFindings (a : Assignment) :
    a.globalFindings m.recordsInForce m.declared =
      a.globalFindings m'.recordsInForce m'.declared := by
  have hunknown : a.unknown m.recordsInForce = a.unknown m'.recordsInForce := h.alike.unknown a
  unfold Assignment.globalFindings
  rw [h.identNamed?, hunknown]

theorem mem_globals_findings {d : Diagnostic} (hkind : d.isRecursive = false)
    (hd : d ∈ m.globals.findings m) : d ∈ m'.globals.findings m' := by
  rw [mem_globals_findings_iff] at hd ⊢
  rcases hd with hd | hd | ⟨decl, hmem, hd⟩ | ⟨decl, hmem, hd⟩ | ⟨a, hmem, hd⟩
  · rw [redefinitions_eq_nil_iff.mpr h.distinct] at hd
    exact absurd hd (by simp)
  · exact Or.inr (Or.inl (mem_reports_of_same (fun _ => h.recordsInForce.mem_iff)
      m'.nodup_recordsInForce hkind hd))
  · refine Or.inr (Or.inr (Or.inl ⟨decl, h.functions.mem_iff.mp hmem, ?_⟩))
    obtain ⟨form, hform, hd⟩ := FunctionDecl.mem_unknown_iff.mp hd
    obtain ⟨ref, href, hnone, rfl⟩ := TyForm.mem_unknown_iff.mp hd
    rw [recordNamed?_eq_none_congr fun _ => h.recordsInForce.mem_iff] at hnone
    exact FunctionDecl.mem_unknown_iff.mpr
      ⟨form, hform, TyForm.mem_unknown_iff.mpr ⟨ref, href, hnone, rfl⟩⟩
  · rw [h.known] at hd
    exact Or.inr (Or.inr (Or.inr (Or.inl ⟨decl, h.functionsInForce.mem_iff.mp hmem, hd⟩)))
  · rw [h.globalFindings] at hd
    rw [h.assignments] at hmem
    exact Or.inr (Or.inr (Or.inr (Or.inr ⟨a, hmem, hd⟩)))

theorem mem_findingsOfItems {w : Widening} {d : Diagnostic}
    (hd : d ∈ findingsOfItems w m.globals m.globals.scope.push m.items) :
    d ∈ findingsOfItems w m'.globals m'.globals.scope.push m'.items := by
  rw [mem_findingsOfItems_iff] at hd ⊢
  rcases hd with ⟨decl, hmem, hd⟩ | hd
  · rw [h.alike.functionFindings] at hd
    exact Or.inl ⟨decl, h.perm.mem_iff.mp hmem, hd⟩
  · right
    rw [h.alike.findingsOfBody h.alike.scope.push] at hd
    have hstatements : m.items.filterMap Item.stmt? = m'.items.filterMap Item.stmt? := h.statements
    rw [hstatements] at hd
    exact hd

/-- A finding that is no recursion is found in both modules. -/
theorem mem_diagnostics {w : Widening} {d : Diagnostic} (hkind : d.isRecursive = false)
    (hd : d ∈ (check w m).diagnostics) : d ∈ (check w m').diagnostics := by
  rw [mem_diagnostics_iff] at hd ⊢
  rcases hd with hd | hd
  · exact Or.inl (h.mem_globals_findings hkind hd)
  · exact Or.inr (h.mem_findingsOfItems hd)

/-- Recursion is found in the one module if it is found in the other, in whatever record. -/
theorem exists_recursive {w : Widening} (hd : ∃ d ∈ (check w m).diagnostics, d.isRecursive = true) :
    ∃ d ∈ (check w m').diagnostics, d.isRecursive = true := by
  obtain ⟨d, hd, hkind⟩ := hd
  cases d with
  | recursiveRecord name span =>
    obtain ⟨other, hcycle⟩ := (Resolution.exists_recursiveRecord_mem_all_iff
      m.nodup_recordsInForce).mp ⟨name, span, recursiveRecord_mem_iff.mp hd⟩
    have hcycle' := cycle_of_subset (fun decl hdecl => h.recordsInForce.mem_iff.mp hdecl) hcycle
    obtain ⟨name', span', hd'⟩ := (Resolution.exists_recursiveRecord_mem_all_iff
      m'.nodup_recordsInForce).mpr ⟨other, hcycle'⟩
    exact ⟨_, recursiveRecord_mem_iff.mpr hd', rfl⟩
  | mismatch _ _ _ _ => exact absurd hkind Bool.noConfusion
  | unknownCallable _ _ => exact absurd hkind Bool.noConfusion
  | notCallable _ _ _ => exact absurd hkind Bool.noConfusion
  | malformedType _ _ _ => exact absurd hkind Bool.noConfusion
  | unknownType _ _ => exact absurd hkind Bool.noConfusion
  | duplicateDefinition _ _ _ => exact absurd hkind Bool.noConfusion
  | undefinedName _ _ => exact absurd hkind Bool.noConfusion
  | returnOutsideFunction _ => exact absurd hkind Bool.noConfusion

/-- With recursion left out, the findings are the same up to their order. -/
theorem perm_filter (w : Widening) :
    ((check w m).diagnostics.filter fun d => !d.isRecursive).Perm
      ((check w m').diagnostics.filter fun d => !d.isRecursive) := by
  -- Both lists hold each finding once, so it is enough that they have the same members.
  apply (List.perm_ext_iff_of_nodup ((nodup_diagnostics w m).filter _)
    ((nodup_diagnostics w m').filter _)).mpr
  intro d
  rw [List.mem_filter, List.mem_filter]
  refine and_congr_left fun hkind => ?_
  have hkind' : d.isRecursive = false := by simpa using hkind
  exact ⟨h.mem_diagnostics hkind', h.symm.mem_diagnostics hkind'⟩

/-- Where nothing is recursive, all of the findings are. -/
theorem perm_of_quiet (w : Widening)
    (hquiet : ∀ d ∈ (check w m).diagnostics, d.isRecursive = false) :
    (check w m).diagnostics.Perm (check w m').diagnostics := by
  have hquiet' : ∀ d ∈ (check w m').diagnostics, d.isRecursive = false := by
    intro d hd
    by_contra hkind
    obtain ⟨other, hother, hrecursive⟩ := h.symm.exists_recursive ⟨d, hd, by simpa using hkind⟩
    rw [hquiet other hother] at hrecursive
    exact absurd hrecursive (by simp)
  have hperm := h.perm_filter w
  rwa [List.filter_eq_self.mpr fun d hd => by simp [hquiet d hd],
    List.filter_eq_self.mpr fun d hd => by simp [hquiet' d hd]] at hperm

theorem clean_of_clean {w : Widening} (hclean : (check w m).isClean = true) :
    (check w m').isClean = true := by
  have hnil : (check w m).diagnostics = [] := List.isEmpty_iff.mp hclean
  have hperm := h.perm_of_quiet w fun d hd => by rw [hnil] at hd; exact absurd hd (by simp)
  rw [hnil] at hperm
  exact List.isEmpty_iff.mpr hperm.nil_eq.symm

theorem counts (w : Widening) :
    (check w m).scope.recordCount = (check w m').scope.recordCount ∧
      (check w m).scope.functionCount = (check w m').scope.functionCount := by
  show m.globals.scope.recordCount = m'.globals.scope.recordCount ∧
    m.globals.scope.functionCount = m'.globals.scope.functionCount
  rw [recordCount_globals, recordCount_globals, functionCount_globals, functionCount_globals,
    h.known]
  exact ⟨h.recordsInForce.countP_eq _, h.functionsInForce.countP_eq _⟩

end Rearranged

/-- The check does not depend on the order of declarations. -/
theorem check_rearranged (w : Widening) {m m' : Module}
    (hdistinct : (m.declared.map Ident.name).Nodup) (hperm : m.items.Perm m'.items)
    (hstatements : m.statements = m'.statements) :
    (check w m).scope.Alike (check w m').scope ∧
    (check w m).scope.recordCount = (check w m').scope.recordCount ∧
    (check w m).scope.functionCount = (check w m').scope.functionCount ∧
    ((check w m).diagnostics.filter fun d => !d.isRecursive).Perm
      ((check w m').diagnostics.filter fun d => !d.isRecursive) ∧
    (check w m).diagnostics.Nodup ∧ (check w m').diagnostics.Nodup ∧
    ((∃ d ∈ (check w m).diagnostics, d.isRecursive = true) ↔
      ∃ d ∈ (check w m').diagnostics, d.isRecursive = true) ∧
    ((check w m).isClean = true ↔ (check w m').isClean = true) ∧
    ((∀ name, ¬ TransGen (Refers m.records) name name) →
      (check w m).diagnostics.Perm (check w m').diagnostics) := by
  have h : m.Rearranged m' := ⟨hdistinct, hperm, hstatements⟩
  obtain ⟨hrecords, hfunctions⟩ := h.counts w
  refine ⟨h.alike.scope, hrecords, hfunctions, h.perm_filter w, nodup_diagnostics w m,
    nodup_diagnostics w m', ⟨h.exists_recursive, h.symm.exists_recursive⟩,
    ⟨h.clean_of_clean, h.symm.clean_of_clean⟩, fun hacyclic => h.perm_of_quiet w fun d hd => ?_⟩
  -- A finding of recursion names a record on a cycle.
  by_contra hkind
  cases d with
  | recursiveRecord name span =>
    obtain ⟨hrun, _⟩ := Resolution.all_reached m.recordsInForce
    have hcycle := Resolution.cycle_of_mem_reports hrun (recursiveRecord_mem_iff.mp hd)
    rw [recordsInForce_of_nodup hdistinct] at hcycle
    exact hacyclic name hcycle
  | _ => exact hkind rfl

/-- A record with fields that are given by their names and the names of their types. -/
def recordItem (name : String) (start : UInt64) (fields : List (String × String)) : Item :=
  .record ⟨⟨name, ⟨start, start + 1⟩⟩, [], true, fields.map fun (field, ty) =>
    ⟨⟨field, ⟨start, start + 1⟩⟩, .named ⟨ty, ⟨start, start + 1⟩⟩, none, ⟨start, start + 1⟩⟩,
    ⟨start, start + 1⟩⟩

/-- Two records that refer to each other, one of them to no record besides. -/
def mutualRecords : Module :=
  ⟨[recordItem "A" 0 [("b", "B")], recordItem "B" 2 [("a", "A"), ("c", "Missing")]]⟩

/-- The same records in the other order. -/
def mutualRecordsSwapped : Module :=
  ⟨[recordItem "B" 2 [("a", "A"), ("c", "Missing")], recordItem "A" 0 [("b", "B")]]⟩

/-- In either order the search enters the cycle at the first record, so recursion is named
differently, and the rest is the same. -/
theorem check_rearranged_mutualRecords :
    (mutualRecords.declared.map Ident.name).Nodup ∧
      mutualRecords.items.Perm mutualRecordsSwapped.items ∧
      mutualRecords.statements = mutualRecordsSwapped.statements ∧
      ((check .empty mutualRecords).diagnostics.filter fun d => !d.isRecursive).Perm
        ((check .empty mutualRecordsSwapped).diagnostics.filter fun d => !d.isRecursive) ∧
      ((check .empty mutualRecords).isClean = true ↔
        (check .empty mutualRecordsSwapped).isClean = true) := by
  have hdistinct : (mutualRecords.declared.map Ident.name).Nodup := by decide
  have hperm : mutualRecords.items.Perm mutualRecordsSwapped.items := .swap _ _ []
  have hstatements : mutualRecords.statements = mutualRecordsSwapped.statements := rfl
  obtain ⟨_, _, _, hfindings, _, _, _, hclean, _⟩ :=
    check_rearranged .empty hdistinct hperm hstatements
  exact ⟨hdistinct, hperm, hstatements, hfindings, hclean⟩

end Module

end Conform
