import Conform.Json.Shape

/-!
# How deep a value is

The depth of a value is the number of its arrays and objects that are open at once where there are
most of them. A reader that is given as many levels runs out of them nowhere: each array and object
takes one, and what it holds is less deep (`depth_arr_le_iff`, `depth_obj_le_iff`).
-/

namespace Conform.Json

mutual

/-- How many arrays and objects of a value are open at once, at most. -/
def depth : Json → Nat
  | .arr elements => depthAll elements + 1
  | .obj members => depthMembers members + 1
  | _ => 0

def depthAll : List Json → Nat
  | [] => 0
  | value :: rest => max value.depth (depthAll rest)

def depthMembers : List (String × Json) → Nat
  | [] => 0
  | (_, value) :: rest => max value.depth (depthMembers rest)

end

variable {n : Nat}

theorem depthAll_le_iff {elements : List Json} :
    depthAll elements ≤ n ↔ ∀ value ∈ elements, value.depth ≤ n := by
  induction elements with
  | nil => simp [depthAll]
  | cons value rest ih => rw [depthAll, Nat.max_le, ih, List.forall_mem_cons]

theorem depthMembers_le_iff {members : List (String × Json)} :
    depthMembers members ≤ n ↔ ∀ member ∈ members, member.2.depth ≤ n := by
  induction members with
  | nil => simp [depthMembers]
  | cons member rest ih => rw [depthMembers, Nat.max_le, ih, List.forall_mem_cons]

@[simp] theorem depth_null : depth .null = 0 := by rw [depth] <;> simp

@[simp] theorem depth_bool (value : Bool) : depth (.bool value) = 0 := by rw [depth] <;> simp

@[simp] theorem depth_nat (value : Nat) : depth (.nat value) = 0 := by rw [depth] <;> simp

@[simp] theorem depth_str (text : String) : depth (.str text) = 0 := by rw [depth] <;> simp

/-- An array takes one level and its elements the others. -/
@[simp] theorem depth_arr_le_iff {elements : List Json} :
    (arr elements).depth ≤ n + 1 ↔ ∀ value ∈ elements, value.depth ≤ n := by
  rw [depth, Nat.add_le_add_iff_right, depthAll_le_iff]

@[simp] theorem depth_obj_le_iff {members : List (String × Json)} :
    (obj members).depth ≤ n + 1 ↔ ∀ member ∈ members, member.2.depth ≤ n := by
  rw [depth, Nat.add_le_add_iff_right, depthMembers_le_iff]

@[simp] theorem not_depth_arr_le_zero {elements : List Json} : ¬ (arr elements).depth ≤ 0 := by
  rw [depth]
  omega

@[simp] theorem not_depth_obj_le_zero {members : List (String × Json)} :
    ¬ (obj members).depth ≤ 0 := by
  rw [depth]
  omega

/-- The parts of a structure are less deep than it is. -/
theorem depth_part_le {value part : Json} {names : List String} {parts : List (Option Json)}
    (hparts : value.parts? names = some parts) (hdepth : value.depth ≤ n + 1)
    (hpart : some part ∈ parts) : part.depth ≤ n := by
  cases value with
  | arr elements =>
    obtain ⟨_, rfl⟩ : elements.length = names.length ∧ elements.map some = parts := by
      simpa [parts?] using hparts
    exact depth_arr_le_iff.mp hdepth part (by simpa using hpart)
  | obj members =>
    obtain ⟨_, rfl⟩ : ((members.map Prod.fst).filter (names.contains ·)).Nodup ∧
        (names.map fun name => (members.find? fun member => member.1 = name).map Prod.snd) =
          parts := by
      simpa [parts?] using hparts
    obtain ⟨name, _, hfind⟩ := List.mem_map.mp hpart
    obtain ⟨member, hmember, rfl⟩ := Option.map_eq_some_iff.mp hfind
    exact depth_obj_le_iff.mp hdepth member (List.mem_of_find?_eq_some hmember)
  | _ => exact absurd hparts (by simp [parts?])

/-- What has parts is an array or object. -/
theorem not_depth_le_zero_of_parts? {value : Json} {names : List String}
    {parts : List (Option Json)} (hparts : value.parts? names = some parts) :
    ¬ value.depth ≤ 0 := by
  cases value with
  | arr elements => exact not_depth_arr_le_zero
  | obj members => exact not_depth_obj_le_zero
  | _ => exact absurd hparts (by simp [parts?])

end Conform.Json
