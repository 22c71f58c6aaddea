import Conform.Proofs.Decode
import Conform.Proofs.Depth

/-!
# Exact readers

What it is for a reader with so many levels left to be exact (`Exact`): whatever it reads is a
spelling of what it gives, it reads every spelling that is not too deep, and what is written for
what it gives is not too deep either. The last is not a case of the others: a value may be read
although it is too deep, if only what is skipped is.

Exactness is of one thing that is read, so it passes from the parts to the whole place by place:
through arrays (`Exact.elements`), variants (`Exact.variant`) and structures (`Exact.members`). Each
takes one level. Below a certain number of levels nothing is read; then nothing that is spelled has
so few (`DeeperThan`).
-/

namespace Conform.Json

/-- With `n` levels left, a value is read as something exactly if it spells that, and only if what
is written for it has no more levels. Levels can run out only on a value that is too deep. -/
structure Exact (n : Nat) (Read Spelled : Json → Prop) (written : Json) : Prop where
  spelled {value : Json} (h : Read value) : Spelled value
  depth_le {value : Json} (h : Read value) : written.depth ≤ n
  read {value : Json} (h : Spelled value) (hdepth : value.depth ≤ n) : Read value

/-- Exactness place by place. -/
inductive ExactAll (n : Nat) : List (Json → Prop) → List (Json → Prop) → List Json → Prop
  | nil : ExactAll n [] [] []
  | cons {Read Spelled : Json → Prop} {written : Json} {reads spellings : List (Json → Prop)}
      {elements : List Json} (h : Exact n Read Spelled written)
      (hrest : ExactAll n reads spellings elements) :
      ExactAll n (Read :: reads) (Spelled :: spellings) (written :: elements)

/-- Exactness part by part. A part that is left out is written all the same. -/
inductive ExactParts (n : Nat) : List Part → List Part → List (String × Json) → Prop
  | nil : ExactParts n [] [] []
  | omissible {key : String} {Read Spelled : Json → Prop} {Omissible : Prop} {written : Json}
      {reads parts : List Part} {members : List (String × Json)} (h : Exact n Read Spelled written)
      (homitted : Omissible → written.depth ≤ n) (hrest : ExactParts n reads parts members) :
      ExactParts n (⟨key, Read, Omissible⟩ :: reads) (⟨key, Spelled, Omissible⟩ :: parts)
        ((key, written) :: members)

theorem ExactParts.required {n : Nat} {key : String} {Read Spelled : Json → Prop} {written : Json}
    {reads parts : List Part} {members : List (String × Json)} (h : Exact n Read Spelled written)
    (hrest : ExactParts n reads parts members) :
    ExactParts n (.required key Read :: reads) (.required key Spelled :: parts)
      ((key, written) :: members) :=
  .omissible h False.elim hrest

/-- No spelling has as few levels as that. -/
def DeeperThan (n : Nat) (Spelled : Json → Prop) : Prop :=
  ∀ value, Spelled value → ¬ value.depth ≤ n

variable {n : Nat} {Read Spelled : Json → Prop} {written : Json}

theorem Exact.of_deeperThan (hread : ∀ value, ¬ Read value) (h : DeeperThan n Spelled) :
    Exact n Read Spelled written where
  spelled hvalue := absurd hvalue (hread _)
  depth_le hvalue := absurd hvalue (hread _)
  read hvalue hdepth := absurd hdepth (h _ hvalue)

theorem Exact.congr {Read' : Json → Prop} (h : Exact n Read' Spelled written)
    (hread : ∀ value, Read value ↔ Read' value) : Exact n Read Spelled written := by
  rwa [funext fun value => propext (hread value)]

/-! ## Values without parts -/

theorem Exact.text (n : Nat) (s : String) :
    Exact n (fun value => value.text? = some s) (· = .str s) (.str s) where
  spelled {value} h := by cases value <;> simp_all [text?]
  depth_le _ := by simp
  read h _ := by simp [h, text?]

theorem Exact.mark (n : Nat) (b : Bool) :
    Exact n (fun value => value.bool? = some b) (· = .bool b) (.bool b) where
  spelled {value} h := by cases value <;> simp_all [bool?]
  depth_le _ := by simp
  read h _ := by simp [h, bool?]

/-! ## Arrays -/

variable {reads spellings : List (Json → Prop)} {writtens : List Json}

theorem ExactAll.spelled (h : ExactAll n reads spellings writtens) {values : List Json}
    (hread : List.Forall₂ (fun Read value => Read value) reads values) :
    List.Forall₂ (fun Spelled value => Spelled value) spellings values := by
  induction h generalizing values with
  | nil => exact hread
  | cons h _ ih =>
    cases hread with
    | cons hvalue hrest => exact .cons (h.spelled hvalue) (ih hrest)

theorem ExactAll.depth_le (h : ExactAll n reads spellings writtens) {values : List Json}
    (hread : List.Forall₂ (fun Read value => Read value) reads values) :
    ∀ written ∈ writtens, written.depth ≤ n := by
  induction h generalizing values with
  | nil => exact fun _ h => nomatch h
  | cons h _ ih =>
    cases hread with
    | cons hvalue hrest => exact List.forall_mem_cons.mpr ⟨h.depth_le hvalue, ih hrest⟩

theorem ExactAll.read (h : ExactAll n reads spellings writtens) {values : List Json}
    (hspelled : List.Forall₂ (fun Spelled value => Spelled value) spellings values)
    (hdepth : ∀ value ∈ values, value.depth ≤ n) :
    List.Forall₂ (fun Read value => Read value) reads values := by
  induction h generalizing values with
  | nil => exact hspelled
  | cons h _ ih =>
    cases hspelled with
    | cons hvalue hrest =>
      rw [List.forall_mem_cons] at hdepth
      exact .cons (h.read hvalue hdepth.1) (ih hrest hdepth.2)

theorem Exact.elements (h : ExactAll n reads spellings writtens) :
    Exact (n + 1) (Elements reads) (Elements spellings) (.arr writtens) where
  spelled := fun ⟨values, heq, hread⟩ => ⟨values, heq, h.spelled hread⟩
  depth_le := fun ⟨_, _, hread⟩ => depth_arr_le_iff.mpr (h.depth_le hread)
  read := by
    rintro _ ⟨values, rfl, hspelled⟩ hdepth
    exact ⟨values, rfl, h.read hspelled (depth_arr_le_iff.mp hdepth)⟩

/-- Lists are read exactly if what they hold is. -/
theorem Exact.list {α : Type} {decode : Json → Option α} {SpelledAs : α → Json → Prop}
    {encode : α → Json}
    (h : ∀ a, Exact n (fun value => decode value = some a) (SpelledAs a) (encode a)) (as : List α) :
    Exact (n + 1) (fun value => value.list? decode = some as) (Elements (as.map SpelledAs))
      (.arr (as.map encode)) := by
  refine (Exact.elements ?_).congr fun value => list?_eq_some_iff
  induction as with
  | nil => exact .nil
  | cons a as ih => exact .cons (h a) ih

theorem deeperThan_elements (h : ∃ Spelled ∈ spellings, DeeperThan n Spelled) :
    DeeperThan (n + 1) (Elements spellings) := by
  rintro _ ⟨values, rfl, hspelled⟩ hdepth
  obtain ⟨Spelled, hmem, hdeep⟩ := h
  rw [depth_arr_le_iff] at hdepth
  obtain ⟨value, hvalue, hspelled⟩ := exists_of_forall₂ hspelled hmem
  exact hdeep value hspelled (hdepth value hvalue)

theorem deeperThan_zero_elements : DeeperThan 0 (Elements spellings) := by
  rintro _ ⟨values, rfl, _⟩
  exact not_depth_arr_le_zero

/-! ## Variants -/

theorem Exact.variant (name : String) (h : Exact n Read Spelled written) :
    Exact (n + 1) (Variant name Read) (Variant name Spelled) (.obj [(name, written)]) where
  spelled := fun ⟨content, heq, hread⟩ => ⟨content, heq, h.spelled hread⟩
  depth_le := fun ⟨_, _, hread⟩ => depth_obj_le_iff.mpr (by simpa using h.depth_le hread)
  read := by
    rintro _ ⟨content, rfl, hspelled⟩ hdepth
    rw [depth_obj_le_iff] at hdepth
    exact ⟨content, rfl, h.read hspelled (by simpa using hdepth)⟩

theorem deeperThan_variant {name : String} (h : DeeperThan n Spelled) :
    DeeperThan (n + 1) (Variant name Spelled) := by
  rintro _ ⟨content, rfl, hspelled⟩ hdepth
  rw [depth_obj_le_iff] at hdepth
  exact h content hspelled (by simpa using hdepth)

theorem deeperThan_zero_variant {name : String} : DeeperThan 0 (Variant name Spelled) := by
  rintro _ ⟨content, rfl, _⟩
  exact not_depth_obj_le_zero

/-! ## Structures -/

variable {readParts parts : List Part} {own : List (String × Json)}

theorem ExactParts.keys_eq (h : ExactParts n readParts parts own) :
    readParts.map Part.key = parts.map Part.key := by
  induction h with
  | nil => rfl
  | omissible _ _ _ ih => rw [List.map_cons, List.map_cons, ih]

theorem ExactParts.takes (h : ExactParts n readParts parts own) {found : List (Option Json)}
    (hread : List.Forall₂ Part.Takes readParts found) : List.Forall₂ Part.Takes parts found := by
  induction h generalizing found with
  | nil => exact hread
  | omissible h _ _ ih =>
    cases hread with
    | @cons _ part _ _ hpart hrest =>
      refine .cons ?_ (ih hrest)
      cases part with
      | none => exact hpart
      | some value => exact h.spelled hpart

theorem ExactParts.depth_le (h : ExactParts n readParts parts own)
    {found : List (Option Json)} (hread : List.Forall₂ Part.Takes readParts found) :
    ∀ member ∈ own, member.2.depth ≤ n := by
  induction h generalizing found with
  | nil => exact fun _ h => nomatch h
  | omissible h homitted _ ih =>
    cases hread with
    | @cons _ part _ _ hpart hrest =>
      refine List.forall_mem_cons.mpr ⟨?_, ih hrest⟩
      cases part with
      | none => exact homitted hpart
      | some value => exact h.depth_le hpart

theorem ExactParts.read (h : ExactParts n readParts parts own) {found : List (Option Json)}
    (htakes : List.Forall₂ Part.Takes parts found)
    (hdepth : ∀ value, some value ∈ found → value.depth ≤ n) :
    List.Forall₂ Part.Takes readParts found := by
  induction h generalizing found with
  | nil => exact htakes
  | omissible h _ _ ih =>
    cases htakes with
    | @cons _ part _ _ hpart hrest =>
      refine .cons ?_ (ih hrest fun value hvalue => hdepth value (List.mem_cons_of_mem _ hvalue))
      cases part with
      | none => exact hpart
      | some value => exact h.read hpart (hdepth value List.mem_cons_self)

theorem Exact.members (h : ExactParts n readParts parts own)
    (hkeys : (parts.map Part.key).Nodup) :
    Exact (n + 1) (Structure readParts) (Structure parts) (.obj own) := by
  have hiff : ∀ value, Structure readParts value ↔
      ∃ found, value.parts? (readParts.map Part.key) = some found ∧
        List.Forall₂ Part.Takes readParts found := fun _ => structure_iff (h.keys_eq ▸ hkeys)
  refine ⟨fun {value} hread => ?_, fun {value} hread => ?_, fun {value} hspelled hdepth => ?_⟩
  · obtain ⟨found, hfound, hread⟩ := (hiff value).mp hread
    exact (structure_iff hkeys).mpr ⟨found, h.keys_eq ▸ hfound, h.takes hread⟩
  · obtain ⟨found, hfound, hread⟩ := (hiff value).mp hread
    exact depth_obj_le_iff.mpr (h.depth_le hread)
  · obtain ⟨found, hfound, htakes⟩ := (structure_iff hkeys).mp hspelled
    exact (hiff value).mpr ⟨found, h.keys_eq ▸ hfound,
      h.read htakes fun _ hpart => depth_part_le hfound hdepth hpart⟩

theorem deeperThan_zero_structure (hkeys : (parts.map Part.key).Nodup) :
    DeeperThan 0 (Structure parts) := by
  intro value hspelled
  obtain ⟨found, hfound, _⟩ := (structure_iff hkeys).mp hspelled
  exact not_depth_le_zero_of_parts? hfound

theorem deeperThan_structure (key : String) (hkeys : (parts.map Part.key).Nodup)
    (hmem : .required key Spelled ∈ parts) (h : DeeperThan n Spelled) :
    DeeperThan (n + 1) (Structure parts) := by
  intro value hspelled hdepth
  obtain ⟨found, hfound, htakes⟩ := (structure_iff hkeys).mp hspelled
  obtain ⟨part, hpart, htakes⟩ := exists_of_forall₂ htakes hmem
  obtain ⟨content, rfl, hspelled⟩ := Part.takes_required_iff.mp htakes
  exact h content hspelled (depth_part_le hfound hdepth hpart)

/-! ## What may be absent -/

theorem Exact.optional {α : Type} {decode : Json → Option α} {SpelledAs : α → Json → Prop}
    {encode : α → Json}
    (h : ∀ a, Exact n (fun value => decode value = some a) (SpelledAs a) (encode a))
    (hnull : decode .null = none) (a? : Option α) :
    Exact n (fun value => value.option? decode = some a?) (Optional SpelledAs a?)
      (ofOption encode a?) := by
  have hvalue : ∀ value a, value.option? decode = some (some a) ↔ decode value = some a := by
    intro value a
    cases value <;> simp [option?, hnull]
  cases a? with
  | none =>
    refine ⟨fun {value} h => ?_, fun _ => by simp [ofOption], ?_⟩
    · cases value <;> simp_all [option?, Optional]
    · rintro _ rfl _
      rfl
  | some a => exact (h a).congr fun value => hvalue value a

end Conform.Json
