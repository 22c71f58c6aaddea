import Conform.Mismatch
import Mathlib.Data.List.TakeWhile

/-!
# Paths from their texts

The text of a path is all that a message or a report says of it, so it has to determine the path:
two paths with the same text are the same, and only the root has none (`pathText_unambiguous`).
Field names are any text at all. One may hold quotes and backslashes, a comma and a space, or the
words `argument 0`.

What carries the proof is more than that texts differ: of any text that begins with a segment one
can tell where the segment ends. `Delimited` says this of a way of writing. It goes from the escapes
of characters to quoted names, from these and from numbers to segments, and from segments to paths.
An escape and a quoted name end by themselves; a number, and so a segment, needs to be followed by
something that is no digit, which the comma is.
-/

namespace Conform

/-! ## Writing that shows where it ends -/

section Delimited

variable {α : Type} {write : α → List Char} {Rest : List Char → Prop}

/-- A text that begins with something written, and goes on with a rest that `Rest` admits, shows
both what was written and the rest. -/
def Delimited (write : α → List Char) (Rest : List Char → Prop) : Prop :=
  ∀ ⦃a b : α⦄ ⦃r s : List Char⦄, Rest r → Rest s → write a ++ r = write b ++ s → a = b ∧ r = s

/-- Nothing of the kind stands at the beginning of what may end a run of such things; then the run
shows where it ends. -/
theorem Delimited.flatMap (h : Delimited write Rest) {End : List Char → Prop}
    (hend : ∀ r, End r → Rest r) (hnext : ∀ a r, Rest (write a ++ r))
    (hstart : ∀ a r, ¬ End (write a ++ r)) :
    Delimited (List.flatMap write) End := by
  have hrest : ∀ {as : List α} {r}, End r → Rest (as.flatMap write ++ r) := by
    intro as r hr
    cases as with
    | nil => exact hend r hr
    | cons a as =>
      rw [List.flatMap_cons, List.append_assoc]
      exact hnext a _
  intro as
  induction as with
  | nil =>
    intro bs r s hr hs heq
    cases bs with
    | nil => exact ⟨rfl, heq⟩
    | cons b bs =>
      simp only [List.flatMap_nil, List.nil_append, List.flatMap_cons, List.append_assoc] at heq
      exact absurd (heq ▸ hr) (hstart b _)
  | cons a as ih =>
    intro bs r s hr hs heq
    cases bs with
    | nil =>
      simp only [List.flatMap_nil, List.nil_append, List.flatMap_cons, List.append_assoc] at heq
      exact absurd (heq ▸ hs) (hstart a _)
    | cons b bs =>
      simp only [List.flatMap_cons, List.append_assoc] at heq
      obtain ⟨rfl, hrun⟩ := h (hrest hr) (hrest hs) heq
      obtain ⟨rfl, hrs⟩ := ih hr hs hrun
      exact ⟨rfl, hrs⟩

/-- Where all that is written consists of characters of one kind, it ends at the first character of
another kind. -/
theorem delimited_of_forall {p : Char → Bool} (hinj : Function.Injective write)
    (hall : ∀ a, ∀ c ∈ write a, p c = true) :
    Delimited write fun r => ∀ c ∈ r.head?, p c = false := by
  have hspan : ∀ {a r}, (∀ c ∈ r.head?, p c = false) → (write a ++ r).takeWhile p = write a := by
    intro a r hr
    rw [List.takeWhile_append_of_pos (hall a)]
    cases r with
    | nil => rw [List.takeWhile_nil, List.append_nil]
    | cons c r => rw [List.takeWhile_cons_of_neg (by simp [hr c rfl]), List.append_nil]
  intro a b r s hr hs heq
  have hab : write a = write b := by
    rw [← hspan (a := a) hr, heq, hspan hs]
  rw [hab] at heq
  exact ⟨hinj hab, List.append_cancel_left heq⟩

end Delimited

/-! ## Numbers -/

theorem digitChar_inj : ∀ m < 16, ∀ n < 16, Nat.digitChar m = Nat.digitChar n → m = n := by
  decide

theorem toDigits_injective {base : Nat} (h : 1 < base) (hbase : base ≤ 16) :
    Function.Injective (Nat.toDigits base) := by
  have hlast : ∀ {m n}, (m % base).digitChar = (n % base).digitChar → m % base = n % base := by
    intro m n
    have hm := Nat.mod_lt m (Nat.zero_lt_of_lt h)
    have hn := Nat.mod_lt n (Nat.zero_lt_of_lt h)
    exact digitChar_inj _ (by omega) _ (by omega)
  have hlength : ∀ {n c}, base ≤ n → Nat.toDigits base n ≠ [c] := by
    intro n c hn hc
    rw [Nat.toDigits_of_base_le h hn, List.append_eq_singleton_iff] at hc
    rcases hc with ⟨hnil, _⟩ | ⟨_, hnil⟩
    · exact Nat.toDigits_ne_nil hnil
    · exact absurd hnil (by simp)
  intro m
  induction m using Nat.strong_induction_on with
  | h m ih =>
    intro n heq
    by_cases hm : m < base <;> by_cases hn : n < base
    · rw [Nat.toDigits_of_lt_base hm, Nat.toDigits_of_lt_base hn, List.singleton_inj] at heq
      exact digitChar_inj m (by omega) n (by omega) heq
    · rw [Nat.toDigits_of_lt_base hm] at heq
      exact absurd heq.symm (hlength (by omega))
    · rw [Nat.toDigits_of_lt_base hn] at heq
      exact absurd heq (hlength (by omega))
    · rw [Nat.toDigits_of_base_le (n := m) h (by omega),
        Nat.toDigits_of_base_le (n := n) h (by omega)] at heq
      obtain ⟨hfirst, hdigit⟩ := List.append_inj' heq rfl
      have hdiv := ih (m / base) (Nat.div_lt_self (by omega) h) hfirst
      have hmod := hlast (List.singleton_inj.mp hdigit)
      rw [← Nat.div_add_mod m base, ← Nat.div_add_mod n base, hdiv, hmod]

theorem exists_digit_of_mem_toDigits {base n : Nat} (h : 1 < base) {c : Char}
    (hc : c ∈ Nat.toDigits base n) : ∃ d < base, c = Nat.digitChar d := by
  induction n using Nat.strong_induction_on with
  | h n ih =>
    by_cases hn : n < base
    · rw [Nat.toDigits_of_lt_base hn, List.mem_singleton] at hc
      exact ⟨n, hn, hc⟩
    · rw [Nat.toDigits_of_base_le h (by omega), List.mem_append, List.mem_singleton] at hc
      rcases hc with hc | hc
      · exact ih (n / base) (Nat.div_lt_self (by omega) h) hc
      · exact ⟨n % base, Nat.mod_lt n (by omega), hc⟩

theorem digitChar_ne_closeBrace : ∀ d < 16, Nat.digitChar d ≠ '\x7d' := by
  decide

/-! ## Quoted text -/

namespace Text

/-- The characters that are written as a backslash and a letter, with their letters. -/
def letterEscapes : List (Char × Char) :=
  [('"', '"'), ('\\', '\\'), ('\x00', '0'), ('\t', 't'), ('\r', 'r'), ('\n', 'n')]

theorem letterEscapes_inj : ∀ e ∈ letterEscapes, ∀ e' ∈ letterEscapes, e.2 = e'.2 → e = e' := by
  decide

/-- How a character may be written between quotes. -/
inductive EscapedAs (c : Char) : List Char → Prop
  | itself (hquote : c ≠ '"') (hback : c ≠ '\\') : EscapedAs c [c]
  | letter {l : Char} (h : (c, l) ∈ letterEscapes) : EscapedAs c ['\\', l]
  | number : EscapedAs c ('\\' :: 'u' :: '\x7b' :: (Nat.toDigits 16 c.toNat ++ ['\x7d']))

theorem escapedAs (c : Char) : EscapedAs c (escaped c) := by
  unfold escaped
  split_ifs with hquote hback h0 ht hr hn
  · exact .letter (by simp [hquote, letterEscapes])
  · exact .letter (by simp [hback, letterEscapes])
  · exact .letter (by simp [h0, letterEscapes])
  · exact .letter (by simp [ht, letterEscapes])
  · exact .letter (by simp [hr, letterEscapes])
  · exact .letter (by simp [hn, letterEscapes])
  · exact .number
  · exact .itself hquote hback

/-- The number of a character ends at the brace. -/
theorem delimited_hex :
    Delimited (fun c : Char => Nat.toDigits 16 c.toNat) fun r => ∀ d ∈ r.head?, d = '\x7d' := by
  have hinj : Function.Injective fun c : Char => Nat.toDigits 16 c.toNat := by
    intro c d heq
    exact Char.toNat_inj.mp (toDigits_injective (by decide) (by decide) heq)
  have hall : ∀ c : Char, ∀ d ∈ Nat.toDigits 16 c.toNat, (d != '\x7d') = true := by
    intro c d hd
    obtain ⟨n, hn, rfl⟩ := exists_digit_of_mem_toDigits (by decide) hd
    simp [digitChar_ne_closeBrace n hn]
  intro c d r s hr hs
  exact delimited_of_forall hinj hall (fun e he => by simp [hr e he])
    (fun e he => by simp [hs e he])

/-- The escape of a character shows where it ends, whatever follows. -/
theorem delimited_escaped : Delimited escaped fun _ => True := by
  intro c d r s _ _ heq
  have hc := escapedAs c
  have hd := escapedAs d
  generalize escaped c = cs at hc heq
  generalize escaped d = ds at hd heq
  cases hc with
  | itself hquote hback =>
    cases hd with
    | itself _ _ => simpa using heq
    | letter _ => exact absurd (List.cons.inj heq).1 hback
    | number => exact absurd (List.cons.inj heq).1 hback
  | letter hl =>
    cases hd with
    | itself _ hback => exact absurd (List.cons.inj heq).1.symm hback
    | letter hl' =>
      simp only [List.cons_append, List.nil_append, List.cons.injEq, true_and] at heq
      have hsame := letterEscapes_inj _ hl _ hl' heq.1
      exact ⟨congrArg Prod.fst hsame, heq.2⟩
    | number =>
      simp only [List.cons_append, List.cons.injEq, true_and] at heq
      exact absurd hl (by simp [heq.1, letterEscapes])
  | number =>
    cases hd with
    | itself _ hback => exact absurd (List.cons.inj heq).1.symm hback
    | letter hl =>
      simp only [List.cons_append, List.cons.injEq, true_and] at heq
      exact absurd hl (by simp [← heq.1, letterEscapes])
    | number =>
      simp only [List.cons_append, List.append_assoc, List.cons.injEq, true_and,
        List.nil_append] at heq
      obtain ⟨rfl, hrest⟩ := delimited_hex (by simp) (by simp) heq
      exact ⟨rfl, (List.cons.inj hrest).2⟩

/-- No escape begins with a quote, so quoted text ends at the first quote that no escape takes. -/
theorem escaped_append_head? (c : Char) (r : List Char) : (escaped c ++ r).head? ≠ some '"' := by
  have hc := escapedAs c
  generalize escaped c = cs at hc
  cases hc with
  | itself hquote _ => simpa using hquote
  | letter _ => simp
  | number => simp

theorem toList_quoted (text : String) :
    (quoted text).toList = '"' :: text.toList.flatMap escaped ++ ['"'] := by
  rw [quoted, String.toList_ofList]

/-- Quoted text shows where it ends, whatever follows. -/
theorem delimited_quoted : Delimited (fun text => (quoted text).toList) fun _ => True := by
  have hchars : Delimited (List.flatMap escaped) fun r => r.head? = some '"' :=
    delimited_escaped.flatMap (fun _ _ => trivial) (fun _ _ => trivial) escaped_append_head?
  intro text text' r s _ _ heq
  simp only [toList_quoted, List.cons_append, List.append_assoc, List.cons.injEq, true_and,
    List.nil_append] at heq
  obtain ⟨htext, hrest⟩ := hchars rfl rfl heq
  exact ⟨String.toList_inj.mp htext, (List.cons.inj hrest).2⟩

end Text

/-! ## Segments and paths -/

/-- A segment shows where it ends if a comma follows, or nothing. -/
theorem delimited_segment :
    Delimited (fun s : Segment => s.text.toList) fun r => ∀ c ∈ r.head?, c = ',' := by
  have hindex : Delimited (Nat.toDigits 10) fun r => ∀ c ∈ r.head?, Char.isDigit c = false :=
    delimited_of_forall (toDigits_injective (by decide) (by decide)) fun _ _ hc =>
      Nat.isDigit_of_mem_toDigits (by decide) (by decide) hc
  intro s s' r r' hr hr' heq
  -- The first letter tells the three kinds apart.
  cases s with
  | field name =>
    cases s' with
    | field name' =>
      simp only [Segment.text, String.toList_append, List.append_assoc] at heq
      obtain ⟨rfl, hrest⟩ := Text.delimited_quoted trivial trivial (List.append_cancel_left heq)
      exact ⟨rfl, hrest⟩
    | argument _ => simp [Segment.text] at heq
    | result => simp [Segment.text] at heq
  | argument index =>
    cases s' with
    | field _ => simp [Segment.text] at heq
    | argument index' =>
      simp only [Segment.text, String.toList_append, List.append_assoc, Nat.toList_repr] at heq
      obtain ⟨rfl, hrest⟩ := hindex (fun c hc => by rw [hr c hc]; decide)
        (fun c hc => by rw [hr' c hc]; decide) (List.append_cancel_left heq)
      exact ⟨rfl, hrest⟩
    | result => simp [Segment.text] at heq
  | result =>
    cases s' with
    | field _ => simp [Segment.text] at heq
    | argument _ => simp [Segment.text] at heq
    | result => exact ⟨rfl, List.append_cancel_left heq⟩

/-- A segment with the separator in front of it. -/
def separated (s : Segment) : List Char :=
  ',' :: ' ' :: s.text.toList

/-- With a separator in front, the text of a path is the run of its segments with theirs. -/
theorem toList_pathText (s : Segment) (path : List Segment) :
    ',' :: ' ' :: (pathText (s :: path)).toList = (s :: path).flatMap separated := by
  induction path generalizing s with
  | nil => simp [pathText, separated]
  | cons s' path ih =>
    have htext : pathText (s :: s' :: path) = s.text ++ ", " ++ pathText (s' :: path) := by
      rw [pathText, List.map_cons, List.map_cons, String.intercalate_cons_cons]
      rfl
    rw [htext, List.flatMap_cons, ← ih]
    simp [separated]

theorem delimited_path : Delimited (List.flatMap separated) (· = []) := by
  have hseparated : Delimited separated fun r => ∀ c ∈ r.head?, c = ',' := by
    intro s s' r r' hr hr' heq
    simp only [separated, List.cons_append, List.cons.injEq, true_and] at heq
    exact delimited_segment hr hr' heq
  refine hseparated.flatMap (fun r hr => ?_) (fun s r => ?_) (fun s r => ?_)
  · simp [hr]
  · simp [separated]
  · simp [separated]

theorem pathText_eq_empty_iff {path : List Segment} : pathText path = "" ↔ path = [] := by
  cases path with
  | nil => simp [pathText]
  | cons s path =>
    have hne : s.text.toList ≠ [] := by cases s <;> simp [Segment.text]
    simp only [reduceCtorEq, iff_false]
    intro hempty
    have hrun := toList_pathText s path
    rw [hempty, List.flatMap_cons, separated] at hrun
    simp only [String.toList_empty, List.cons_append, List.cons.injEq, true_and] at hrun
    exact hne (List.append_eq_nil_iff.mp hrun.symm).1

theorem pathText_injective : Function.Injective pathText := by
  intro p q heq
  cases p with
  | nil => exact (pathText_eq_empty_iff.mp heq.symm).symm
  | cons s path =>
    cases q with
    | nil => exact pathText_eq_empty_iff.mp heq
    | cons s' path' =>
      have hruns : (s :: path).flatMap separated = (s' :: path').flatMap separated := by
        rw [← toList_pathText, ← toList_pathText, heq]
      exact (delimited_path (r := []) (s := []) rfl rfl (congrArg (· ++ []) hruns)).1

/-- A path is known from its text, whatever names it goes through, and only the root has none. -/
theorem pathText_unambiguous (p q : List Segment) :
    (pathText p = pathText q ↔ p = q) ∧ (pathText p = "" ↔ p = []) :=
  ⟨pathText_injective.eq_iff, pathText_eq_empty_iff⟩

end Conform
