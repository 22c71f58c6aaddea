import Conform.Scope

/-!
# What declarations do to lookups

Each way to declare a name, read through each way to look one up. A declaration is found under its
own name by the lookup of its own kind; every other lookup stays as it was. Opening a frame changes
no lookup at all.

These are equations for `simp`. After them no proof opens a frame or a table.
-/

namespace Conform

namespace Scope

variable (s : Scope) (name key : String)

/-! ## Records -/

@[simp] theorem record?_declareRecord (ty : Ty) (span : Span) :
    (s.declareRecord name ty span).record? key =
      if name = key then some ⟨ty, span⟩ else s.record? key := by
  simp only [record?, frames, declareRecord, List.findSome?_cons, Table.get?_insert]
  by_cases h : name = key
  · simp [h]
  · simp [h]

@[simp] theorem record?_declareFunction (signature : Signature) (span : Span) :
    (s.declareFunction name signature span).record? key = s.record? key := rfl

@[simp] theorem record?_poison : (s.poison name).record? key = s.record? key := rfl

@[simp] theorem record?_bind (binding : Binding) :
    (s.bind name binding).record? key = s.record? key := rfl

@[simp] theorem record?_push : s.push.record? key = s.record? key := rfl

@[simp] theorem record?_empty : empty.record? key = none := rfl

/-! ## Functions -/

@[simp] theorem function?_declareRecord (ty : Ty) (span : Span) :
    (s.declareRecord name ty span).function? key = s.function? key := rfl

@[simp] theorem function?_declareFunction (signature : Signature) (span : Span) :
    (s.declareFunction name signature span).function? key =
      if name = key then some ⟨signature, span⟩ else s.function? key := by
  simp only [function?, frames, declareFunction, List.findSome?_cons, Table.get?_insert]
  by_cases h : name = key
  · simp [h]
  · simp [h]

@[simp] theorem function?_poison : (s.poison name).function? key = s.function? key := rfl

@[simp] theorem function?_bind (binding : Binding) :
    (s.bind name binding).function? key = s.function? key := rfl

@[simp] theorem function?_push : s.push.function? key = s.function? key := rfl

@[simp] theorem function?_empty : empty.function? key = none := rfl

/-! ## Variables -/

@[simp] theorem local?_declareRecord (ty : Ty) (span : Span) :
    (s.declareRecord name ty span).local? key = s.local? key := rfl

@[simp] theorem local?_declareFunction (signature : Signature) (span : Span) :
    (s.declareFunction name signature span).local? key = s.local? key := rfl

@[simp] theorem local?_poison : (s.poison name).local? key = s.local? key := rfl

@[simp] theorem local?_bind (binding : Binding) :
    (s.bind name binding).local? key = if name = key then some binding else s.local? key := by
  simp only [local?, frames, bind, List.findSome?_cons, Table.get?_insert]
  by_cases h : name = key
  · simp [h]
  · simp [h]

@[simp] theorem local?_push : s.push.local? key = s.local? key := rfl

@[simp] theorem local?_empty : empty.local? key = none := rfl

/-! ## Poisoned names -/

@[simp] theorem isPoisoned_declareRecord (ty : Ty) (span : Span) :
    (s.declareRecord name ty span).isPoisoned key = s.isPoisoned key := rfl

@[simp] theorem isPoisoned_declareFunction (signature : Signature) (span : Span) :
    (s.declareFunction name signature span).isPoisoned key = s.isPoisoned key := rfl

@[simp] theorem isPoisoned_poison :
    (s.poison name).isPoisoned key = (decide (name = key) || s.isPoisoned key) := by
  simp [isPoisoned, frames, poison, Bool.or_assoc, eq_comm (a := key)]

@[simp] theorem isPoisoned_bind (binding : Binding) :
    (s.bind name binding).isPoisoned key = s.isPoisoned key := rfl

@[simp] theorem isPoisoned_push : s.push.isPoisoned key = s.isPoisoned key := rfl

@[simp] theorem isPoisoned_empty : empty.isPoisoned key = false := rfl

/-! ## Bound names -/

@[simp] theorem isBound_bind (binding : Binding) :
    (s.bind name binding).isBound key = (decide (name = key) || s.isBound key) := by
  unfold isBound
  rw [local?_bind]
  by_cases h : name = key
  · simp [h]
  · simp [h]

@[simp] theorem isBound_push : s.push.isBound key = s.isBound key := rfl

variable {s name} in
theorem isBound_of_local? {binding : Binding} (h : s.local? name = some binding) :
    s.isBound name = true := by
  simp [isBound, h]

variable {s name} in
theorem isBound_of_callable? {signature : Signature} (h : s.callable? name = some signature) :
    s.isBound name = true := by
  unfold callable? at h
  cases hlocal : s.local? name with
  | some binding => exact isBound_of_local? hlocal
  | none =>
    rw [hlocal] at h
    obtain ⟨entry, hentry, _⟩ := Option.map_eq_some_iff.mp h
    simp [isBound, hentry]

/-! ## Counts -/

@[simp] theorem recordCount_declareFunction (signature : Signature) (span : Span) :
    (s.declareFunction name signature span).recordCount = s.recordCount := rfl

@[simp] theorem recordCount_poison : (s.poison name).recordCount = s.recordCount := rfl

@[simp] theorem recordCount_bind (binding : Binding) :
    (s.bind name binding).recordCount = s.recordCount := rfl

@[simp] theorem recordCount_empty : empty.recordCount = 0 := rfl

@[simp] theorem functionCount_declareRecord (ty : Ty) (span : Span) :
    (s.declareRecord name ty span).functionCount = s.functionCount := rfl

@[simp] theorem functionCount_poison : (s.poison name).functionCount = s.functionCount := rfl

@[simp] theorem functionCount_bind (binding : Binding) :
    (s.bind name binding).functionCount = s.functionCount := rfl

@[simp] theorem functionCount_empty : empty.functionCount = 0 := rfl

/-- In a scope without frames around it a record that is not found yet makes one more. -/
theorem recordCount_declareRecord (houter : s.outer = []) (hnew : s.record? name = none) (ty : Ty)
    (span : Span) : (s.declareRecord name ty span).recordCount = s.recordCount + 1 := by
  have hget : s.current.records.get? name = none := by
    simpa [record?, frames, houter] using hnew
  simp [recordCount, declareRecord, Table.size_insert, hget]

theorem functionCount_declareFunction (houter : s.outer = []) (hnew : s.function? name = none)
    (signature : Signature) (span : Span) :
    (s.declareFunction name signature span).functionCount = s.functionCount + 1 := by
  have hget : s.current.functions.get? name = none := by
    simpa [function?, frames, houter] using hnew
  simp [functionCount, declareFunction, Table.size_insert, hget]

/-! ## Frames around the current one -/

@[simp] theorem outer_declareRecord (ty : Ty) (span : Span) :
    (s.declareRecord name ty span).outer = s.outer := rfl

@[simp] theorem outer_declareFunction (signature : Signature) (span : Span) :
    (s.declareFunction name signature span).outer = s.outer := rfl

@[simp] theorem outer_poison : (s.poison name).outer = s.outer := rfl

@[simp] theorem outer_empty : empty.outer = [] := rfl

end Scope

end Conform
