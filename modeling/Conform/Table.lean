/-!
# Tables

A finite map from names. Storing under a name replaces what was stored there, so that each name
occurs once and the size of a table is the number of its names.
-/

namespace Conform

/-- A finite map from names to values. -/
structure Table (α : Type) where
  entries : List (String × α)
  nodup : (entries.map Prod.fst).Nodup

namespace Table

variable {α : Type}

def empty : Table α := ⟨[], List.nodup_nil⟩

def get? (t : Table α) (name : String) : Option α :=
  (t.entries.find? fun entry => entry.1 = name).map Prod.snd

def insert (t : Table α) (name : String) (value : α) : Table α where
  entries := (name, value) :: t.entries.filter fun entry => entry.1 ≠ name
  nodup := by
    refine List.nodup_cons.mpr ⟨fun h => ?_, t.nodup.sublist (List.filter_sublist.map _)⟩
    obtain ⟨entry, h', rfl⟩ := List.mem_map.mp h
    simpa using (List.mem_filter.mp h').2

def size (t : Table α) : Nat :=
  t.entries.length

@[simp] theorem get?_empty (name : String) : (empty : Table α).get? name = none := rfl

@[simp] theorem size_empty : (empty : Table α).size = 0 := rfl

/-- What is stored under a name is found there, and no other name is affected. -/
theorem get?_insert (t : Table α) (name key : String) (value : α) :
    (t.insert name value).get? key = if name = key then some value else t.get? key := by
  by_cases h : name = key
  · simp [get?, insert, h]
  · simp only [get?, insert, h, decide_false, List.find?_cons, if_false, List.find?_filter]
    congr 2
    funext entry
    by_cases h' : entry.1 = key
    · simp [h', Ne.symm h]
    · simp [h']

/-- A name has a value exactly if it occurs. -/
theorem get?_isSome_iff (t : Table α) (name : String) :
    (t.get? name).isSome = true ↔ name ∈ t.entries.map Prod.fst := by
  simp [get?, List.find?_isSome]

/-- Only a new name makes a table larger. -/
theorem size_insert (t : Table α) (name : String) (value : α) :
    (t.insert name value).size = if (t.get? name).isSome then t.size else t.size + 1 := by
  have key : ∀ entries : List (String × α), (entries.map Prod.fst).Nodup →
      (entries.filter fun entry => entry.1 ≠ name).length + 1
        = entries.length + if name ∈ entries.map Prod.fst then 0 else 1 := by
    intro entries
    induction entries with
    | nil => simp
    | cons entry rest ih =>
      intro h
      rw [List.map_cons, List.nodup_cons] at h
      have ih := ih h.2
      by_cases hn : entry.1 = name
      · have hr : name ∉ rest.map Prod.fst := hn ▸ h.1
        rw [if_neg hr] at ih
        rw [List.filter_cons_of_neg (by simp [hn]), if_pos (by simp [hn])]
        simpa using ih
      · rw [List.filter_cons_of_pos (by simp [hn])]
        simp only [List.length_cons, List.map_cons, List.mem_cons, Ne.symm hn, false_or]
        omega
  have h := key t.entries t.nodup
  simp only [size, insert, List.length_cons, get?_isSome_iff]
  rw [h]
  split <;> rfl

end Table

end Conform
