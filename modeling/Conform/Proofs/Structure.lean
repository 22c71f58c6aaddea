import Conform.Json.Shape
import Conform.Proofs.Definition
import Mathlib.Data.List.Perm.Lattice

/-!
# Structures and variants

The shapes of `Conform/Json/Shape.lean` as predicates on values, said without the search for keys
that `parts?` makes. Each takes a predicate for every place of the shape, so that a tuple, a list
and the array form of a structure are one notion (`Elements`).

A structure may have its members in any order and others among them, may lack a part whose absence
says what the part would (`Part.Omissible`), and may be an array of all its parts. Whether a value
spells a structure depends only on what `parts?` finds of it (`structure_iff`).
-/

namespace Conform.Json

/-- A value spells a sequence: it is an array with a spelling of each in its place. -/
def Elements (spellings : List (Json → Prop)) (value : Json) : Prop :=
  ∃ elements, value = .arr elements ∧
    List.Forall₂ (fun Spelled element => Spelled element) spellings elements

/-- A value is a variant: an object whose only key names it. -/
def Variant (name : String) (Spelled : Json → Prop) (value : Json) : Prop :=
  ∃ content, value = .obj [(name, content)] ∧ Spelled content

/-- What may be absent is then `null`. -/
def Optional {α : Type} (SpelledAs : α → Json → Prop) : Option α → Json → Prop
  | some a => SpelledAs a
  | none => (· = .null)

/-- A part of a structure: its key, what spells it, and whether it may be left out. -/
structure Part where
  key : String
  Spelled : Json → Prop
  Omissible : Prop

/-- A part that may not be left out. -/
def Part.required (key : String) (Spelled : Json → Prop) : Part :=
  ⟨key, Spelled, False⟩

@[simp] theorem Part.key_required (key : String) (Spelled : Json → Prop) :
    (Part.required key Spelled).key = key := rfl

/-- Members that are the parts of a structure in their order, less some that may be left out. -/
inductive Members : List Part → List (String × Json) → Prop
  | nil : Members [] []
  | written {part : Part} {value : Json} {parts : List Part} {members : List (String × Json)}
      (h : part.Spelled value) (hrest : Members parts members) :
      Members (part :: parts) ((part.key, value) :: members)
  | omitted {part : Part} {parts : List Part} {members : List (String × Json)}
      (h : part.Omissible) (hrest : Members parts members) : Members (part :: parts) members

/-- A value spells a structure. -/
inductive Structure (parts : List Part) : Json → Prop
  | array {value : Json} (h : Elements (parts.map Part.Spelled) value) : Structure parts value
  | object {own others members : List (String × Json)} (hown : Members parts own)
      (hothers : ∀ member ∈ others, member.1 ∉ parts.map Part.key)
      (hmembers : members.Perm (own ++ others)) : Structure parts (.obj members)

/-! ## What is found of a structure

What `parts?` finds of a value is all that matters to whether it spells a structure.
-/

/-- What spells a part: a value, or nothing if it may be left out. -/
def Part.Takes (part : Part) : Option Json → Prop
  | some value => part.Spelled value
  | none => part.Omissible

@[simp] theorem Part.takes_required_iff {key : String} {Spelled : Json → Prop}
    {part : Option Json} :
    (Part.required key Spelled).Takes part ↔ ∃ value, part = some value ∧ Spelled value := by
  cases part <;> simp [Takes, required]

variable {parts : List Part} {own others members : List (String × Json)}

theorem Members.keys_sublist (h : Members parts own) :
    (own.map Prod.fst).Sublist (parts.map Part.key) := by
  induction h with
  | nil => exact .slnil
  | written _ _ ih => exact ih.cons_cons _
  | omitted _ _ ih => exact ih.cons _

/-- The value of a key, where no other member has it. -/
theorem find?_member_eq_some_iff {names : List String} {name : String} {value : Json}
    (h : ((members.map Prod.fst).filter (names.contains ·)).Nodup) (hname : name ∈ names) :
    (members.find? fun member => member.1 = name).map Prod.snd = some value ↔
      (name, value) ∈ members := by
  have hfilter : (members.find? fun member => member.1 = name) =
      (members.filter fun member => names.contains member.1).find?
        fun member => member.1 = name := by
    rw [List.find?_filter]
    congr 1
    funext member
    by_cases hkey : member.1 = name <;> simp [hkey, hname]
  rw [List.filter_map] at h
  rw [hfilter, Option.map_eq_some_iff]
  constructor
  · rintro ⟨member, hfind, rfl⟩
    obtain ⟨hmem, rfl⟩ := (find?_key_eq_some_iff h).mp hfind
    exact List.mem_of_mem_filter hmem
  · intro hmem
    exact ⟨(name, value), (find?_key_eq_some_iff h).mpr
      ⟨List.mem_filter.mpr ⟨hmem, by simpa using hname⟩, rfl⟩, rfl⟩

/-- The value of a key, nothing if no member has it. -/
def member? (members : List (String × Json)) (key : String) : Option Json :=
  (members.find? fun member => member.1 = key).map Prod.snd

theorem Members.takes (h : Members parts own) (hkeys : (parts.map Part.key).Nodup) :
    ∀ part ∈ parts, part.Takes (member? own part.key) := by
  induction h with
  | nil => exact fun _ h => nomatch h
  | @written first value parts members h hrest ih =>
    rw [List.map_cons, List.nodup_cons] at hkeys
    rw [List.forall_mem_cons]
    refine ⟨by simpa [member?, Part.Takes] using h, fun part hpart => ?_⟩
    have hne : first.key ≠ part.key := fun heq => hkeys.1 (heq ▸ List.mem_map_of_mem hpart)
    simpa [member?, hne] using ih hkeys.2 part hpart
  | @omitted first parts members h hrest ih =>
    rw [List.map_cons, List.nodup_cons] at hkeys
    rw [List.forall_mem_cons]
    have hnone : member? members first.key = none := by
      simp only [member?, Option.map_eq_none_iff, List.find?_eq_none, decide_eq_true_eq]
      intro member hmember heq
      exact hkeys.1 (heq ▸ hrest.keys_sublist.subset (List.mem_map_of_mem hmember))
    rw [hnone]
    exact ⟨h, ih hkeys.2⟩

/-- The members that are the parts found. -/
def ownMembers (find : String → Option Json) (parts : List Part) : List (String × Json) :=
  parts.filterMap fun part => (find part.key).map (part.key, ·)

theorem members_ownMembers {find : String → Option Json}
    (h : ∀ part ∈ parts, part.Takes (find part.key)) : Members parts (ownMembers find parts) := by
  induction parts with
  | nil => exact .nil
  | cons part parts ih =>
    rw [List.forall_mem_cons] at h
    rw [ownMembers, List.filterMap_cons]
    cases hfind : find part.key with
    | none => exact .omitted (by simpa [hfind, Part.Takes] using h.1) (ih h.2)
    | some value => exact .written (by simpa [hfind, Part.Takes] using h.1) (ih h.2)

theorem mem_ownMembers_iff {find : String → Option Json} {member : String × Json} :
    member ∈ ownMembers find parts ↔
      member.1 ∈ parts.map Part.key ∧ find member.1 = some member.2 := by
  obtain ⟨key, value⟩ := member
  simp only [ownMembers, List.mem_filterMap, Option.map_eq_some_iff, List.mem_map, Prod.mk.injEq]
  constructor
  · rintro ⟨part, hpart, _, hfind, rfl, rfl⟩
    exact ⟨⟨part, hpart, rfl⟩, hfind⟩
  · rintro ⟨⟨part, hpart, rfl⟩, hfind⟩
    exact ⟨part, hpart, value, hfind, rfl, rfl⟩

section Object

variable (hown : Members parts own)
  (hothers : ∀ member ∈ others, member.1 ∉ parts.map Part.key)
  (hmembers : members.Perm (own ++ others))

include hown hothers hmembers

/-- Among the members of an object that spells a structure those of the structure are its own. -/
theorem Members.perm_keys :
    ((members.map Prod.fst).filter ((parts.map Part.key).contains ·)).Perm (own.map Prod.fst) := by
  have hnone : (others.map Prod.fst).filter ((parts.map Part.key).contains ·) = [] := by
    simpa using fun key value hmem => by simpa using hothers (key, value) hmem
  have hall : (own.map Prod.fst).filter ((parts.map Part.key).contains ·) = own.map Prod.fst := by
    rw [List.filter_eq_self]
    exact fun key hkey => by simpa using hown.keys_sublist.subset hkey
  have hfilter := (hmembers.map Prod.fst).filter ((parts.map Part.key).contains ·)
  rwa [List.map_append, List.filter_append, hnone, hall, List.append_nil] at hfilter

theorem Members.nodup_keys (hkeys : (parts.map Part.key).Nodup) :
    ((members.map Prod.fst).filter ((parts.map Part.key).contains ·)).Nodup :=
  (hown.perm_keys hothers hmembers).nodup_iff.mpr (hown.keys_sublist.nodup hkeys)

theorem Members.member?_eq (hkeys : (parts.map Part.key).Nodup) {key : String}
    (hkey : key ∈ parts.map Part.key) : member? members key = member? own key := by
  have hnodup := hown.nodup_keys hothers hmembers hkeys
  have hnodup' := hown.nodup_keys (List.forall_mem_nil _) (.of_eq (List.append_nil own).symm) hkeys
  refine Option.ext fun value => ?_
  rw [member?, member?, find?_member_eq_some_iff hnodup hkey, find?_member_eq_some_iff hnodup' hkey,
    hmembers.mem_iff, List.mem_append]
  exact or_iff_left fun hmem => hothers _ hmem hkey

end Object

/-- The members of an object that the parts of a structure find in it are all that have its keys. -/
theorem ownMembers_perm (hkeys : (parts.map Part.key).Nodup)
    (hnodup : ((members.map Prod.fst).filter ((parts.map Part.key).contains ·)).Nodup)
    (htakes : ∀ part ∈ parts, part.Takes (member? members part.key)) :
    (ownMembers (member? members) parts).Perm
      (members.filter fun member => (parts.map Part.key).contains member.1) := by
  refine (List.perm_ext_iff_of_nodup ?_ ?_).mpr fun member => ?_
  · exact ((members_ownMembers htakes).keys_sublist.nodup hkeys).of_map
  · rw [List.filter_map] at hnodup
    exact hnodup.of_map
  · rw [mem_ownMembers_iff, List.mem_filter, List.contains_iff_mem, and_comm]
    exact and_congr_left fun hkey => find?_member_eq_some_iff hnodup hkey

/-- An object spells a structure exactly if no key of the structure is repeated and every part
takes what its key has. -/
theorem structure_obj_iff (hkeys : (parts.map Part.key).Nodup) :
    Structure parts (.obj members) ↔
      ((members.map Prod.fst).filter ((parts.map Part.key).contains ·)).Nodup ∧
        ∀ part ∈ parts, part.Takes (member? members part.key) := by
  constructor
  · intro h
    cases h with
    | array h =>
      obtain ⟨_, heq, _⟩ := h
      exact nomatch heq
    | object hown hothers hmembers =>
      refine ⟨hown.nodup_keys hothers hmembers hkeys, fun part hpart => ?_⟩
      rw [hown.member?_eq hothers hmembers hkeys (List.mem_map_of_mem hpart)]
      exact hown.takes hkeys part hpart
  · intro h
    obtain ⟨hnodup, htakes⟩ := h
    refine .object (members_ownMembers htakes) ?_
      (((ownMembers_perm hkeys hnodup htakes).append_right _).trans
        (List.filter_append_perm _ members)).symm
    simp

/-- A value spells a structure exactly if it has the parts and each takes what it has. -/
theorem structure_iff (hkeys : (parts.map Part.key).Nodup) {value : Json} :
    Structure parts value ↔ ∃ found, value.parts? (parts.map Part.key) = some found ∧
      List.Forall₂ Part.Takes parts found := by
  cases value with
  | arr elements =>
    have hlength : List.Forall₂ Part.Takes parts (elements.map some) ↔
        elements.length = parts.length ∧ List.Forall₂ Part.Takes parts (elements.map some) :=
      ⟨fun h => ⟨by simpa using h.length_eq.symm, h⟩, And.right⟩
    have harray : Structure parts (.arr elements) ↔
        List.Forall₂ Part.Takes parts (elements.map some) := by
      rw [List.forall₂_map_right_iff]
      constructor
      · rintro ⟨elements', heq, h⟩
        cases heq
        exact List.forall₂_map_left_iff.mp h
      · exact fun h => .array ⟨elements, rfl, List.forall₂_map_left_iff.mpr h⟩
    rw [harray, hlength]
    simp only [parts?, List.length_map, Option.ite_none_right_eq_some, Option.some.injEq]
    constructor
    · exact fun ⟨hlength, h⟩ => ⟨_, ⟨hlength, rfl⟩, h⟩
    · rintro ⟨_, ⟨hlength, rfl⟩, h⟩
      exact ⟨hlength, h⟩
  | obj members =>
    rw [structure_obj_iff hkeys]
    simp only [parts?, Option.ite_none_right_eq_some, Option.some.injEq]
    constructor
    · rintro ⟨hnodup, htakes⟩
      refine ⟨_, ⟨hnodup, rfl⟩, ?_⟩
      rw [List.map_map, List.forall₂_map_right_iff, List.forall₂_same]
      exact htakes
    · rintro ⟨_, ⟨hnodup, rfl⟩, htakes⟩
      rw [List.map_map, List.forall₂_map_right_iff, List.forall₂_same] at htakes
      exact ⟨hnodup, htakes⟩
  | _ =>
    constructor
    · rintro (⟨_, heq, _⟩ | _)
      exact nomatch heq
    · rintro ⟨_, heq, _⟩
      simp [parts?] at heq

end Conform.Json
