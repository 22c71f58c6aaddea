import Conform.Json.Printer
import Mathlib.Data.List.Chain
import Mathlib.Data.List.TakeWhile

/-!
# Scanning what has been written

The printer writes tokens one after the other; the scanner has to find them again, one character at
a time (`scan?_flatMap_chars`). It can, if no two words or numbers stand side by side, for only
then does each of them end where it did when it was written. Blanks between tokens are passed over,
so the statement is on lexemes and covers every layout.

Three facts carry it. A character that continues neither a word nor a number finishes the token at
hand (`step_of_endsToken`). The characters that stand for a character in a string leave exactly that
one behind, escape or not (`foldlM_escaped`). And the digits of a number are a number that begins
with `0` only if it is that (`spellsNumber_toDigits`).
-/

namespace Conform.Json

namespace Token

/-- A token that only the character after it can end: a word or a number. -/
def isBare : Token → Bool
  | null | bool _ | nat _ | numeral _ => true
  | _ => false

/-- A character that can continue neither a word nor a number. -/
def endsToken (c : Char) : Bool :=
  !c.isLower && !continuesNumber c

/-! ## Ends of tokens -/

/-- Where a token is complete, a character that ends it is taken as the first of what follows. -/
theorem step_of_endsToken {s : Scanner} {ts : List Token} (hs : s.finish? = some ts) {c : Char}
    (hc : endsToken c = true) : s.step c = Scanner.start ts.reverse c := by
  obtain ⟨hlower, hnumber⟩ : c.isLower = false ∧ continuesNumber c = false := by
    simpa [endsToken] using hc
  obtain ⟨tokens, mode⟩ := s
  cases mode with
  | between =>
    obtain rfl : tokens.reverse = ts := by simpa [Scanner.finish?] using hs
    simp [Scanner.step]
  | word letters =>
    obtain ⟨t, ht, rfl⟩ : ∃ t, ofWord? letters.reverse = some t ∧ (t :: tokens).reverse = ts := by
      simpa only [Scanner.finish?, Option.map_eq_some_iff] using hs
    simp [Scanner.step, hlower, ht]
  | number chars =>
    obtain ⟨t, ht, rfl⟩ : ∃ t, ofNumber? chars.reverse = some t ∧ (t :: tokens).reverse = ts := by
      simpa only [Scanner.finish?, Option.map_eq_some_iff] using hs
    simp [Scanner.step, hnumber, ht]
  | string pieces => exact absurd hs (by simp [Scanner.finish?])
  | escape pieces => exact absurd hs (by simp [Scanner.finish?])
  | unit pieces digits value => exact absurd hs (by simp [Scanner.finish?])

theorem isBlank_iff {c : Char} :
    isBlank c = true ↔ c = ' ' ∨ c = '\t' ∨ c = '\n' ∨ c = '\r' := by
  simp [isBlank, or_assoc]

theorem endsToken_of_isBlank {c : Char} (h : isBlank c = true) : endsToken c = true := by
  rcases isBlank_iff.mp h with rfl | rfl | rfl | rfl <;> decide

/-- Blanks finish the token at hand and leave nothing else. -/
theorem foldlM_blanks {s : Scanner} {ts : List Token} (hs : s.finish? = some ts) {c : Char}
    {cs : List Char} (hc : isBlank c = true) (hcs : ∀ d ∈ cs, isBlank d = true) :
    (c :: cs).foldlM Scanner.step s = some ⟨ts.reverse, .between⟩ := by
  rw [List.foldlM_cons, step_of_endsToken hs (endsToken_of_isBlank hc), Scanner.start, if_pos hc]
  show cs.foldlM Scanner.step ⟨ts.reverse, .between⟩ = _
  induction cs with
  | nil => rfl
  | cons d rest ih =>
    have hd : Scanner.step ⟨ts.reverse, .between⟩ d = some ⟨ts.reverse, .between⟩ := by
      rw [Scanner.step, Scanner.start, if_pos (hcs d List.mem_cons_self)]
    rw [List.foldlM_cons, hd]
    exact ih fun e he => hcs e (List.mem_cons_of_mem _ he)

theorem step_punctuation {s : Scanner} {ts : List Token} (hs : s.finish? = some ts) {c : Char}
    {t : Token} (hc : ofPunctuation? c = some t) :
    s.step c = some ⟨t :: ts.reverse, .between⟩ := by
  have hcases : c = '[' ∨ c = ']' ∨ c = '\x7b' ∨ c = '\x7d' ∨ c = ',' ∨ c = ':' := by
    unfold ofPunctuation? at hc
    split at hc <;> simp_all
  have hends : endsToken c = true := by
    rcases hcases with rfl | rfl | rfl | rfl | rfl | rfl <;> decide
  have hstart : isBlank c = false ∧ c ≠ '"' ∧ (c.isDigit || c = '-') = false ∧
      c.isLower = false := by
    rcases hcases with rfl | rfl | rfl | rfl | rfl | rfl <;> decide
  obtain ⟨hblank, hquote, hdigit, hlower⟩ := hstart
  rw [step_of_endsToken hs hends, Scanner.start]
  simp [hblank, hquote, hdigit, hlower, hc]

/-! ## Numbers -/

theorem all_isDigit_toDigits (n : Nat) : (Nat.toDigits 10 n).all Char.isDigit = true := by
  rw [List.all_eq_true]
  intro c hc
  exact Nat.isDigit_of_mem_toDigits (by decide) (by decide) hc

/-- A number begins with a zero only if it is zero. -/
theorem toDigits_head_ne_zero {n : Nat} (hn : n ≠ 0) :
    ∃ c cs, Nat.toDigits 10 n = c :: cs ∧ c ≠ '0' := by
  induction n using Nat.strong_induction_on with
  | h n ih =>
    by_cases hlt : n < 10
    · refine ⟨n.digitChar, [], Nat.toDigits_of_lt_base hlt, ?_⟩
      rwa [Ne, Nat.digitChar_eq_zero]
    · -- The first digit is that of the number without its last digit.
      obtain ⟨c, cs, hhead, hc⟩ := ih (n / 10) (by omega) (by omega)
      refine ⟨c, cs ++ [(n % 10).digitChar], ?_, hc⟩
      rw [Nat.toDigits_of_base_le (by decide) (by omega), hhead, List.cons_append]

theorem spellsNumber_toDigits (n : Nat) : spellsNumber (Nat.toDigits 10 n) = true := by
  by_cases hn : n = 0
  · subst hn
    rw [Nat.toDigits_zero]
    decide
  · obtain ⟨c, cs, hdigits, hc⟩ := toDigits_head_ne_zero hn
    have hall := all_isDigit_toDigits n
    rw [hdigits, List.all_cons, Bool.and_eq_true] at hall
    have hminus : c ≠ '-' := by
      rintro rfl
      exact absurd hall.1 (by decide)
    have hrest : cs.dropWhile Char.isDigit = [] := by
      rw [List.dropWhile_eq_nil_iff]
      exact List.all_eq_true.mp hall.2
    simp [hdigits, spellsNumber, hminus, afterWhole?, hc, hall.1, hrest, afterFraction?,
      afterExponent?]

theorem ofNumber?_toDigits (n : Nat) : ofNumber? (Nat.toDigits 10 n) = some (nat n) := by
  rw [ofNumber?, if_pos (spellsNumber_toDigits n), if_pos (all_isDigit_toDigits n),
    Nat.ofDigitChars_ten_toDigits]

theorem foldlM_number {tokens : List Token} {chars cs : List Char}
    (hcs : ∀ c ∈ cs, c.isDigit = true) :
    cs.foldlM Scanner.step ⟨tokens, .number chars⟩ =
      some ⟨tokens, .number (cs.reverse ++ chars)⟩ := by
  induction cs generalizing chars with
  | nil => rfl
  | cons c rest ih =>
    have hstep : Scanner.step ⟨tokens, .number chars⟩ c = some ⟨tokens, .number (c :: chars)⟩ := by
      simp [Scanner.step, continuesNumber, hcs c List.mem_cons_self]
    rw [List.foldlM_cons, hstep, List.reverse_cons, List.append_assoc]
    exact ih fun d hd => hcs d (List.mem_cons_of_mem _ hd)

theorem foldlM_toDigits (tokens : List Token) (n : Nat) :
    (Nat.toDigits 10 n).foldlM Scanner.step ⟨tokens, .between⟩ =
      some ⟨tokens, .number (Nat.toDigits 10 n).reverse⟩ := by
  obtain ⟨c, cs, hdigits⟩ := List.exists_cons_of_ne_nil (Nat.toDigits_ne_nil (n := n) (b := 10))
  have hall : ∀ d ∈ c :: cs, d.isDigit = true := by
    rw [← hdigits]
    exact List.all_eq_true.mp (all_isDigit_toDigits n)
  have hc := hall c List.mem_cons_self
  have hblank : ¬ isBlank c = true := by
    intro hblank
    rcases isBlank_iff.mp hblank with rfl | rfl | rfl | rfl <;> exact absurd hc (by decide)
  have hquote : c ≠ '"' := by
    rintro rfl
    exact absurd hc (by decide)
  have hstart : Scanner.step ⟨tokens, .between⟩ c = some ⟨tokens, .number [c]⟩ := by
    simp [Scanner.step, Scanner.start, hblank, hquote, hc]
  rw [hdigits, List.foldlM_cons, hstart, List.reverse_cons]
  exact foldlM_number fun d hd => hall d (List.mem_cons_of_mem _ hd)

/-! ## Strings -/

/-- What a character of a string leaves in the scanner: a control without an escape of its own is
named by its number. -/
def written (c : Char) : Piece :=
  if c = '\x08' ∨ c = '\x0c' ∨ c = '\n' ∨ c = '\r' ∨ c = '\t' then .char c
  else if c.toNat < 0x20 then .unit c.toNat
  else .char c

theorem hexValue?_digitChar : ∀ n < 16, hexValue? (Nat.digitChar n) = some n := by
  decide

theorem foldlM_escaped (tokens : List Token) (pieces : List Piece) (c : Char) :
    (escaped c).foldlM Scanner.step ⟨tokens, .string pieces⟩ =
      some ⟨tokens, .string (written c :: pieces)⟩ := by
  unfold escaped written
  by_cases hquote : c = '"'
  · subst hquote; rfl
  by_cases hback : c = '\\'
  · subst hback; rfl
  by_cases hb : c = '\x08'
  · subst hb; rfl
  by_cases hf : c = '\x0c'
  · subst hf; rfl
  by_cases hn : c = '\n'
  · subst hn; rfl
  by_cases hr : c = '\r'
  · subst hr; rfl
  by_cases ht : c = '\t'
  · subst ht; rfl
  simp only [hquote, hback, hb, hf, hn, hr, ht, if_false, or_self]
  by_cases hcontrol : c.toNat < 0x20
  · -- `\u00`, and then the number in two digits.
    have hvalue : 16 * (c.toNat / 16) + c.toNat % 16 = c.toNat := by omega
    simp only [if_pos hcontrol, List.foldlM_cons, List.foldlM_nil]
    simp [Scanner.step, hexValue?_digitChar (c.toNat / 16) (by omega),
      hexValue?_digitChar (c.toNat % 16) (by omega), hvalue, show hexValue? '0' = some 0 by decide]
  · simp only [if_neg hcontrol, List.foldlM_cons, List.foldlM_nil]
    simp [Scanner.step, hquote, hback, hcontrol]

theorem foldlM_flatMap_escaped (tokens : List Token) (pieces : List Piece) (cs : List Char) :
    (cs.flatMap escaped).foldlM Scanner.step ⟨tokens, .string pieces⟩ =
      some ⟨tokens, .string (cs.reverse.map written ++ pieces)⟩ := by
  induction cs generalizing pieces with
  | nil => rfl
  | cons c rest ih =>
    rw [List.flatMap_cons, List.foldlM_append, foldlM_escaped]
    show (rest.flatMap escaped).foldlM Scanner.step ⟨tokens, .string (written c :: pieces)⟩ = _
    rw [ih, List.reverse_cons, List.map_append, List.append_assoc]
    rfl

/-- What the characters of a string leave is that string. -/
theorem assemble_map_written (text cs : List Char) :
    assemble text (cs.map written) = some (cs.reverse ++ text) := by
  induction cs generalizing text with
  | nil => rfl
  | cons c rest ih =>
    have hc : assemble text (written c :: rest.map written) =
        assemble (c :: text) (rest.map written) := by
      unfold written
      split
      · rw [assemble]
      · split
        · next hcontrol =>
          have hlow : isLow c.toNat = false := by simp [isLow]; omega
          have hhigh : isHigh c.toNat = false := by simp [isHigh]; omega
          rw [assemble.eq_def]
          simp [hlow, hhigh]
        · rw [assemble]
    rw [List.map_cons, hc, ih, List.reverse_cons, List.append_assoc]
    rfl

theorem foldlM_str {s : Scanner} {ts : List Token} (hs : s.finish? = some ts) (text : String) :
    (str (some text)).chars.foldlM Scanner.step s =
      some ⟨str (some text) :: ts.reverse, .between⟩ := by
  have hopen : s.step '"' = some ⟨ts.reverse, .string []⟩ := by
    rw [step_of_endsToken hs (by decide)]
    rfl
  have hclose : ∀ pieces, Scanner.step ⟨ts.reverse, .string pieces⟩ '"' =
      some ⟨ofPieces pieces :: ts.reverse, .between⟩ := fun _ => rfl
  have hpieces : ofPieces (text.toList.reverse.map written ++ []) = str (some text) := by
    rw [List.append_nil, ofPieces, assemble_map_written, List.reverse_reverse, List.append_nil,
      Option.map_some, String.ofList_toList]
  rw [chars, List.cons_append, List.foldlM_cons, hopen]
  show (text.toList.flatMap escaped ++ ['"']).foldlM Scanner.step ⟨ts.reverse, .string []⟩ = _
  rw [List.foldlM_append, foldlM_flatMap_escaped, Option.bind_eq_bind, Option.bind_some,
    List.foldlM_cons, hclose, hpieces]
  rfl

/-! ## Lexemes -/

/-- A string without text is written as half of a surrogate pair, which has none. -/
theorem foldlM_unpaired {s : Scanner} {ts : List Token} (hs : s.finish? = some ts) :
    (str none).chars.foldlM Scanner.step s = some ⟨str none :: ts.reverse, .between⟩ := by
  rw [chars, List.foldlM_cons, step_of_endsToken hs (by decide)]
  rfl

/-! ### Where a token leaves the scanner -/

/-- With no token at hand the scanner is known from the tokens it gives. -/
theorem eq_of_finish? {s : Scanner} {ts : List Token} (hs : s.finish? = some ts)
    (hmode : s.mode = .between) : s = ⟨ts.reverse, .between⟩ := by
  obtain ⟨tokens, mode⟩ := s
  obtain rfl : mode = .between := hmode
  obtain rfl : tokens.reverse = ts := by simpa [Scanner.finish?] using hs
  rw [List.reverse_reverse]

theorem finish?_complete (ts : List Token) (t : Token) :
    Scanner.finish? ⟨t :: ts.reverse, .between⟩ = some (ts ++ [t]) := by
  simp [Scanner.finish?]

theorem finish?_word (ts : List Token) (letters : List Char) {t : Token}
    (ht : ofWord? letters = some t) :
    Scanner.finish? ⟨ts.reverse, .word letters.reverse⟩ = some (ts ++ [t]) := by
  simp [Scanner.finish?, ht]

theorem finish?_number (ts : List Token) (value : Nat) :
    Scanner.finish? ⟨ts.reverse, .number (Nat.toDigits 10 value).reverse⟩ =
      some (ts ++ [.nat value]) := by
  simp [Scanner.finish?, ofNumber?_toDigits]

theorem foldlM_punctuation {s : Scanner} {ts : List Token} (hs : s.finish? = some ts) {c : Char}
    {t : Token} (hc : ofPunctuation? c = some t) :
    [c].foldlM Scanner.step s = some ⟨t :: ts.reverse, .between⟩ := by
  rw [List.foldlM_cons, step_punctuation hs hc]
  rfl

end Token

open Token

/-- A part of a text that only the character after it can end. -/
def Lexeme.isBare : Lexeme → Bool
  | .token t => t.isBare
  | _ => false

/-- No two words or numbers stand side by side. -/
def Parted (ls : List Lexeme) : Prop :=
  ls.IsChain fun l l' => l.isBare = true → l'.isBare = false

/-- One part of a text: what is not bare ends by itself, and anything else needs a token before it
that has ended. -/
theorem foldlM_chars {s : Scanner} {ts : List Token} (hs : s.finish? = some ts) (l : Lexeme)
    (hplain : ∀ spelling, l ≠ .token (.numeral spelling))
    (hready : l.isBare = true → s.mode = .between) :
    ∃ s', l.chars.foldlM Scanner.step s = some s' ∧ s'.finish? = some (ts ++ l.token?.toList) ∧
      (l.isBare = false → s'.mode = .between) := by
  cases l with
  | space =>
    exact ⟨_, foldlM_blanks hs (by decide) (by simp), by simp [Scanner.finish?, Lexeme.token?],
      fun _ => rfl⟩
  | line indent =>
    refine ⟨_, foldlM_blanks hs (by decide) fun d hd => ?_,
      by simp [Scanner.finish?, Lexeme.token?], fun _ => rfl⟩
    rw [List.eq_of_mem_replicate hd]
    decide
  | token t =>
    cases t with
    | openArray | closeArray | openObject | closeObject | comma | colon =>
      exact ⟨_, foldlM_punctuation hs rfl, finish?_complete ts _, fun _ => rfl⟩
    | null =>
      rw [eq_of_finish? hs (hready rfl)]
      exact ⟨_, rfl, finish?_word ts ['n', 'u', 'l', 'l'] rfl, nofun⟩
    | bool value =>
      rw [eq_of_finish? hs (hready rfl)]
      cases value with
      | true => exact ⟨_, rfl, finish?_word ts ['t', 'r', 'u', 'e'] rfl, nofun⟩
      | false => exact ⟨_, rfl, finish?_word ts ['f', 'a', 'l', 's', 'e'] rfl, nofun⟩
    | nat value =>
      rw [eq_of_finish? hs (hready rfl)]
      exact ⟨_, foldlM_toDigits ts.reverse value, finish?_number ts value, nofun⟩
    | numeral spelling => exact absurd rfl (hplain spelling)
    | str text? =>
      cases text? with
      | none => exact ⟨_, foldlM_unpaired hs, finish?_complete ts _, fun _ => rfl⟩
      | some text => exact ⟨_, foldlM_str hs text, finish?_complete ts _, fun _ => rfl⟩

/-- A run of parts. -/
theorem foldlM_flatMap_chars {s : Scanner} {ts : List Token} (hs : s.finish? = some ts)
    {ls : List Lexeme} (hparted : Parted ls)
    (hplain : ∀ spelling, .token (.numeral spelling) ∉ ls)
    (hready : ∀ l ∈ ls.head?, l.isBare = true → s.mode = .between) :
    ∃ s', (ls.flatMap Lexeme.chars).foldlM Scanner.step s = some s' ∧
      s'.finish? = some (ts ++ ls.filterMap Lexeme.token?) := by
  induction ls generalizing s ts with
  | nil => exact ⟨s, rfl, by simpa using hs⟩
  | cons l rest ih =>
    obtain ⟨hnext, hrest⟩ := List.isChain_cons.mp hparted
    obtain ⟨s', hrun, hs', hmode⟩ := foldlM_chars hs l
      (fun spelling heq => hplain spelling (heq ▸ List.mem_cons_self)) (hready l rfl)
    have hready' : ∀ l' ∈ rest.head?, l'.isBare = true → s'.mode = .between := by
      intro l' hl' hbare'
      cases hbare : l.isBare with
      | true => exact absurd (hnext l' hl' hbare) (by simp [hbare'])
      | false => exact hmode hbare
    obtain ⟨s'', hrun', hs''⟩ := ih hs' hrest
      (fun spelling hmem => hplain spelling (List.mem_cons_of_mem _ hmem)) hready'
    refine ⟨s'', ?_, ?_⟩
    · rw [List.flatMap_cons, List.foldlM_append, hrun]
      exact hrun'
    · rw [hs'', List.append_assoc]
      cases htoken : l.token? <;> simp [htoken]

/-- The tokens of a text are found again in it. -/
theorem scan?_flatMap_chars {ls : List Lexeme} (hparted : Parted ls)
    (hplain : ∀ spelling, .token (.numeral spelling) ∉ ls) :
    scan? (ls.flatMap Lexeme.chars) = some (ls.filterMap Lexeme.token?) := by
  have hstart : Scanner.finish? ⟨[], .between⟩ = some [] := rfl
  obtain ⟨s, hrun, hs⟩ := foldlM_flatMap_chars hstart hparted hplain fun _ _ _ => rfl
  rw [scan?, hrun]
  exact hs

end Conform.Json
