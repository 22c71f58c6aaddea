import Conform.Proofs.Reports

/-!
# Which records a module registers

The search through the records keeps a memo: a record that has been settled is not looked at again.
It could go wrong in two ways that a test would hardly meet — a record is remembered without a type
because the search came to it while a record above it was still open, or a member of a cycle gets a
type because the search entered the cycle elsewhere. Neither happens, on any graph of references:

* a record in force is registered **if and only if** it is `Resolvable`, and poisoned otherwise;
* the fields of a registered record are the ones that its declaration gives it, read with the types
  that are registered for the records it names;
* recursion is reported **if and only if** the graph has a cycle, and each report names a record on
  one. Which of the records of a cycle is named depends on where the search starts, so no more is
  said of it.

The graph has an edge for each base and for each name in a field annotation that is no scalar
keyword, whether or not a record has that name. An edge to no record is what makes a record
unresolvable for want of a type.
-/

namespace Conform

open Relation (TransGen)

/-- A record is registered with a type. -/
def Scope.Registers (scope : Scope) (name : String) (ty : Ty) : Prop :=
  ∃ entry, scope.record? name = some entry ∧ entry.value = ty

namespace Module

variable {m : Module}

/-- The types that are registered are those that the declarations give. -/
theorem registers_iff {name : String} {ty : Ty} :
    m.globals.scope.Registers name ty ↔ m.Types name ty := by
  constructor
  · intro h
    obtain ⟨entry, hentry, rfl⟩ := h
    obtain ⟨_, _, _, hty, _⟩ := record?_globals_iff.mp hentry
    exact hty
  · intro h
    obtain ⟨decl, hmem, hname, _⟩ := recordType_iff.mp h
    exact ⟨⟨ty, decl.span⟩, record?_globals_iff.mpr ⟨decl, hmem, hname, h, rfl⟩, rfl⟩

theorem registers_eq (m : Module) : m.globals.scope.Registers = m.Types := by
  funext name ty
  exact propext registers_iff

theorem exists_types_iff {name : String} :
    (∃ ty, m.Types name ty) ↔ Resolvable m.recordsInForce name :=
  (Resolution.resolvable_iff m.nodup_recordsInForce).symm

theorem isSome_record?_iff {name : String} :
    (m.globals.scope.record? name).isSome = true ↔ Resolvable m.recordsInForce name := by
  rw [← exists_types_iff, Option.isSome_iff_exists]
  constructor
  · intro h
    obtain ⟨entry, hentry⟩ := h
    exact ⟨entry.value, registers_iff.mp ⟨entry, hentry, rfl⟩⟩
  · intro h
    obtain ⟨ty, hty⟩ := h
    obtain ⟨entry, hentry, _⟩ := registers_iff.mpr hty
    exact ⟨entry, hentry⟩

/-- A record in force is poisoned unless it is resolvable. -/
theorem isPoisoned_record_iff {decl : RecordDecl} (hmem : decl ∈ m.recordsInForce) :
    m.globals.scope.isPoisoned decl.name.name = true ↔
      ¬ Resolvable m.recordsInForce decl.name.name := by
  rw [isPoisoned_globals_iff, ← exists_types_iff, not_exists]
  constructor
  · intro h
    rcases h with ⟨_, _, _, hnone⟩ | ⟨other, hother, hname, _⟩
    · exact hnone
    · exact absurd hname.symm
        ((mem_recordsInForce_iff.mp hmem).name_ne (mem_functionsInForce_iff.mp hother))
  · intro h
    exact Or.inl ⟨decl, hmem, rfl, h⟩

/-- The fields of a registered record are those that its declaration gives it among the records
registered. -/
theorem hasFields_of_record? {decl : RecordDecl} (hmem : decl ∈ m.recordsInForce)
    {entry : Declared Ty} (h : m.globals.scope.record? decl.name.name = some entry) :
    entry.span = decl.span ∧ ∃ fields, entry.value = .record (some decl.name.name) fields ∧
      decl.HasFields m.globals.scope.Registers fields := by
  obtain ⟨other, hother, hname, hty, hspan⟩ := record?_globals_iff.mp h
  obtain rfl := decl_unique m.nodup_recordsInForce hother hmem hname
  obtain ⟨again, hagain, hname', fields, hfields, _, hvalue⟩ := recordType_iff.mp hty
  obtain rfl := decl_unique m.nodup_recordsInForce hagain hmem hname'
  refine ⟨hspan, fields, hvalue, ?_⟩
  rw [registers_eq]
  exact hfields

/-- A record on a cycle is one that is in force. -/
theorem exists_record_of_cycle {records : List RecordDecl} {name : String}
    (h : TransGen (Refers records) name name) : ∃ decl ∈ records, decl.name.name = name := by
  obtain ⟨_, href, _⟩ := Relation.TransGen.head'_iff.mp h
  obtain ⟨decl, hmem, hname, _⟩ := href
  exact ⟨decl, hmem, hname⟩

/-- Record resolution is right on every graph of references. -/
theorem check_registers_resolvable_records (w : Widening) (m : Module) :
    (∀ decl, decl ∈ m.recordsInForce ↔ m.DefinesRecord decl) ∧
    (∀ decl, m.DefinesRecord decl →
      (((check w m).scope.record? decl.name.name).isSome = true ↔
        Resolvable m.recordsInForce decl.name.name) ∧
      ((check w m).scope.isPoisoned decl.name.name = true ↔
        ¬ Resolvable m.recordsInForce decl.name.name) ∧
      ∀ entry, (check w m).scope.record? decl.name.name = some entry →
        entry.span = decl.span ∧ ∃ fields, entry.value = .record (some decl.name.name) fields ∧
          decl.HasFields (check w m).scope.Registers fields) ∧
    ((∃ name span, .recursiveRecord name span ∈ (check w m).diagnostics) ↔
      ∃ name, TransGen (Refers m.recordsInForce) name name) ∧
    ∀ name span, .recursiveRecord name span ∈ (check w m).diagnostics →
      (∃ decl, m.DefinesRecord decl ∧ decl.name.name = name) ∧
        TransGen (Refers m.recordsInForce) name name := by
  refine ⟨fun decl => mem_recordsInForce_iff, fun decl hdecl => ?_, ?_, fun name span h => ?_⟩
  · have hmem := mem_recordsInForce_iff.mpr hdecl
    exact ⟨isSome_record?_iff, isPoisoned_record_iff hmem,
      fun entry h => hasFields_of_record? hmem h⟩
  · simp only [recursiveRecord_mem_iff]
    exact Resolution.exists_recursiveRecord_mem_all_iff m.nodup_recordsInForce
  · obtain ⟨hrun, _⟩ := Resolution.all_reached m.recordsInForce
    have hcycle := Resolution.cycle_of_mem_reports hrun (recursiveRecord_mem_iff.mp h)
    obtain ⟨decl, hmem, hname⟩ := exists_record_of_cycle hcycle
    exact ⟨⟨decl, mem_recordsInForce_iff.mp hmem, hname⟩, hcycle⟩

end Module

end Conform
