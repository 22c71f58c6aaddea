import Conform.Command.Rule
import Mathlib.Data.List.DropRight

/-!
# The arguments that state a rule

The grammar of widening rules as arguments, said without the reader: an argument is cut at its first
equals sign (`Halves`), and each half is a word for a kind with white space around it (`Names`). An
argument outside the grammar is refused for the first thing that is wrong with it, from left to
right (`Refused`). The main statement (`parseRule_grammar`) is that the reader keeps to both.

What is left of a text without the white space at its ends is said here apart from `Text.trim`, by
how it lies in the text (`Text.TrimsTo`). An equals sign is no white space, and like white space it
is no part of a word for a kind. So padding never changes where an argument is cut, and a second
equals sign spoils a rule wherever it stands.
-/

namespace Conform

/-! ## White space at the ends -/

namespace Text

/-- The characters with the property `White_Space`, in the order of their code points. -/
def whiteSpace : List Char :=
  ['\t', '\n', '\x0b', '\x0c', '\r', ' ', '\u0085', '\u00a0', '\u1680', '\u2000', '\u2001',
    '\u2002', '\u2003', '\u2004', '\u2005', '\u2006', '\u2007', '\u2008', '\u2009', '\u200a',
    '\u2028', '\u2029', '\u202f', '\u205f', '\u3000']

/-- `text` is `core` with white space, or nothing, on either side. -/
def Padded (text core : String) : Prop :=
  ∃ before after : String, text = before ++ core ++ after ∧
    (∀ c ∈ before.toList, c ∈ whiteSpace) ∧ ∀ c ∈ after.toList, c ∈ whiteSpace

/-- `core` is what is left of `text` without the white space at both ends. -/
structure TrimsTo (text core : String) : Prop where
  padded : Padded text core
  starts : ∀ c ∈ core.toList.head?, c ∉ whiteSpace
  ends : ∀ c ∈ core.toList.getLast?, c ∉ whiteSpace

theorem isBlank_iff_mem {c : Char} : isBlank c = true ↔ c ∈ whiteSpace := by
  constructor
  · intro h
    have hcode : c.toNat ∈ whiteSpace.map Char.toNat := by
      simp only [isBlank, Bool.or_eq_true, Bool.and_eq_true, decide_eq_true_eq] at h
      simp only [whiteSpace, List.map_cons, List.map_nil, List.mem_cons, List.not_mem_nil,
        Char.reduceToNat, or_false]
      omega
    obtain ⟨d, hd, heq⟩ := List.mem_map.mp hcode
    rwa [Char.toNat_inj.mp heq] at hd
  · have hall : whiteSpace.all isBlank = true := by decide
    exact List.all_eq_true.mp hall c

theorem trim_eq_rdropWhile (cs : List Char) :
    trim cs = (cs.dropWhile isBlank).rdropWhile isBlank := rfl

/-- White space that is added at the ends is taken away again. -/
theorem trim_append {before core after : List Char} (hbefore : ∀ c ∈ before, isBlank c = true)
    (hafter : ∀ c ∈ after, isBlank c = true) : trim (before ++ core ++ after) = trim core := by
  have hend : ∀ cs : List Char, (cs ++ after).rdropWhile isBlank = cs.rdropWhile isBlank := by
    intro cs
    rw [List.rdropWhile, List.rdropWhile, List.reverse_append, List.dropWhile_append_of_pos]
    exact fun c hc => hafter c (List.mem_reverse.mp hc)
  rw [trim_eq_rdropWhile, trim_eq_rdropWhile, List.append_assoc,
    List.dropWhile_append_of_pos hbefore, List.dropWhile_append]
  split
  case isTrue hempty =>
    rw [List.isEmpty_iff.mp hempty, List.dropWhile_eq_nil_iff.mpr hafter]
  case isFalse => rw [hend]

theorem trim_eq_self {cs : List Char} (hstarts : ∀ c ∈ cs.head?, ¬ isBlank c = true)
    (hends : ∀ c ∈ cs.getLast?, ¬ isBlank c = true) : trim cs = cs := by
  have hleft : cs.dropWhile isBlank = cs := by
    cases cs with
    | nil => rfl
    | cons c rest => exact List.dropWhile_cons_of_neg (hstarts c rfl)
  rw [trim_eq_rdropWhile, hleft, List.rdropWhile_eq_self_iff]
  exact fun hne => hends _ (List.getLast?_eq_some_getLast hne)

theorem not_isBlank_of_mem_head?_trim {cs : List Char} {c : Char} (hc : c ∈ (trim cs).head?) :
    ¬ isBlank c = true := by
  obtain ⟨rest, hrest⟩ := List.head?_eq_some_iff.mp hc
  -- What is cut off at the end does not reach the first character: that is still the one at which
  -- the white space in front stopped.
  obtain ⟨after, hafter⟩ := List.rdropWhile_prefix isBlank (cs.dropWhile isBlank)
  have hfirst := List.head?_dropWhile_not isBlank cs
  rw [← hafter, ← trim_eq_rdropWhile, hrest] at hfirst
  simpa using hfirst

theorem not_isBlank_of_mem_getLast?_trim {cs : List Char} {c : Char}
    (hc : c ∈ (trim cs).getLast?) : ¬ isBlank c = true := by
  obtain ⟨hne, rfl⟩ := List.mem_getLast?_eq_getLast hc
  exact List.rdropWhile_last_not isBlank (cs.dropWhile isBlank) hne

theorem padded_trim (text : String) : Padded text (String.ofList (trim text.toList)) := by
  have hparts : text.toList.takeWhile isBlank ++ trim text.toList ++
      (text.toList.dropWhile isBlank).rtakeWhile isBlank = text.toList := by
    rw [List.append_assoc, trim_eq_rdropWhile, List.rdropWhile_append_rtakeWhile,
      List.takeWhile_append_dropWhile]
  refine ⟨String.ofList (text.toList.takeWhile isBlank),
    String.ofList ((text.toList.dropWhile isBlank).rtakeWhile isBlank), ?_, ?_, ?_⟩
  · rw [← String.toList_inj, String.toList_append, String.toList_append]
    simpa only [String.toList_ofList] using hparts.symm
  · intro c hc
    rw [String.toList_ofList] at hc
    exact isBlank_iff_mem.mp (List.mem_takeWhile_imp hc)
  · intro c hc
    rw [String.toList_ofList] at hc
    exact isBlank_iff_mem.mp (List.mem_rtakeWhile_imp hc)

/-- There is one text that is left, and `trim` finds it. -/
theorem trimsTo_iff {text core : String} :
    TrimsTo text core ↔ String.ofList (trim text.toList) = core := by
  constructor
  · rintro ⟨⟨before, after, rfl, hbefore, hafter⟩, hstarts, hends⟩
    rw [String.toList_append, String.toList_append,
      trim_append (fun c hc => isBlank_iff_mem.mpr (hbefore c hc))
        (fun c hc => isBlank_iff_mem.mpr (hafter c hc)),
      trim_eq_self (fun c hc => mt isBlank_iff_mem.mp (hstarts c hc))
        (fun c hc => mt isBlank_iff_mem.mp (hends c hc)), String.ofList_toList]
  · rintro rfl
    refine ⟨padded_trim text, fun c hc hwhite => ?_, fun c hc hwhite => ?_⟩
    · rw [String.toList_ofList] at hc
      exact not_isBlank_of_mem_head?_trim hc (isBlank_iff_mem.mpr hwhite)
    · rw [String.toList_ofList] at hc
      exact not_isBlank_of_mem_getLast?_trim hc (isBlank_iff_mem.mpr hwhite)

/-- What is not white space is the same with the padding and without it. -/
theorem Padded.mem_iff {text core : String} (h : Padded text core) {c : Char}
    (hc : c ∉ whiteSpace) : c ∈ text.toList ↔ c ∈ core.toList := by
  obtain ⟨before, after, rfl, hbefore, hafter⟩ := h
  rw [String.toList_append, String.toList_append, List.mem_append, List.mem_append]
  exact ⟨fun hmem => hmem.elim (fun hmem => hmem.resolve_left (mt (hbefore c) hc))
    (fun hmem => absurd (hafter c hmem) hc), fun hmem => .inl (.inr hmem)⟩

end Text

/-! ## Words for kinds -/

namespace Scalar

/-- The words for a kind: its keyword, and a second one for the kind of the absent value. -/
inductive NamedBy : Scalar → String → Prop
  | keyword (k : Scalar) : NamedBy k k.keyword
  | lowercase : NamedBy none "none"

theorem ofKeyword?_eq_some_iff {word : String} {k : Scalar} :
    ofKeyword? word = some k ↔ k.NamedBy word := by
  constructor
  · intro h
    unfold ofKeyword? at h
    split at h <;> cases h
    case h_7 => exact .lowercase
    all_goals exact .keyword _
  · intro h
    cases h with
    | keyword => exact ofKeyword?_keyword k
    | lowercase => rfl

theorem ofKeyword?_eq_none_iff {word : String} :
    ofKeyword? word = .none ↔ ∀ k : Scalar, ¬ k.NamedBy word := by
  rw [Option.eq_none_iff_forall_ne_some]
  exact forall_congr' fun k => not_congr ofKeyword?_eq_some_iff

theorem NamedBy.isAlpha {k : Scalar} {word : String} (h : k.NamedBy word) {c : Char}
    (hc : c ∈ word.toList) : c.isAlpha = true := by
  have hall : word.toList.all Char.isAlpha = true := by
    cases h with
    | keyword => cases k <;> decide
    | lowercase => decide
  exact List.all_eq_true.mp hall c hc

/-- A word for a kind has no white space of its own to lose. -/
theorem NamedBy.trimsTo {k : Scalar} {word text : String} (h : k.NamedBy word)
    (hpadded : Text.Padded text word) : Text.TrimsTo text word := by
  have hwhite : ∀ c ∈ word.toList, c ∉ Text.whiteSpace := by
    intro c hc hwhite
    have hnone : Text.whiteSpace.all (fun c => ! c.isAlpha) = true := by decide
    have hother := List.all_eq_true.mp hnone c hwhite
    rw [h.isAlpha hc] at hother
    exact absurd hother (by decide)
  exact ⟨hpadded, fun c hc => hwhite c (List.mem_of_head? hc),
    fun c hc => hwhite c (List.mem_of_getLast? hc)⟩

end Scalar

namespace Command

/-! ## The grammar -/

/-- An argument, cut at its first equals sign. -/
structure Halves (argument left right : String) : Prop where
  eq : argument = left ++ "=" ++ right
  first : '=' ∉ left.toList

/-- Without white space at its ends, a side of a rule is a word for the kind. -/
def Names (side : String) (kind : Scalar) : Prop :=
  ∃ word, Text.TrimsTo side word ∧ kind.NamedBy word

/-- Without white space at its ends, a side of a rule is `word`, which stands for no kind. -/
def NamesNone (side word : String) : Prop :=
  Text.TrimsTo side word ∧ ∀ kind : Scalar, ¬ kind.NamedBy word

/-- An argument states a rule: its halves name the two kinds. -/
def States (argument : String) (source target : Scalar) : Prop :=
  ∃ left right, Halves argument left right ∧ Names left source ∧ Names right target

/-- What is said of an argument that states no rule. -/
inductive Refused (argument : String) : String → Prop
  | noEquals (h : '=' ∉ argument.toList) :
    Refused argument ("expected FROM=TO, got '" ++ argument ++ "'")
  | source {left right word : String} (hhalves : Halves argument left right)
    (hleft : NamesNone left word) : Refused argument ("unknown scalar kind '" ++ word ++ "'")
  | target {left right word : String} {source : Scalar} (hhalves : Halves argument left right)
    (hleft : Names left source) (hright : NamesNone right word) :
    Refused argument ("unknown scalar kind '" ++ word ++ "'")

theorem exists_halves {argument : String} (h : '=' ∈ argument.toList) :
    ∃ left right, Halves argument left right := by
  obtain ⟨left, right, hsplit, hfirst⟩ := List.eq_append_cons_of_mem h
  refine ⟨String.ofList left, String.ofList right, ?_, ?_⟩
  · rw [← String.toList_inj, hsplit]
    simp
  · rwa [String.toList_ofList]

theorem names_or_namesNone (side : String) :
    (∃ kind, Names side kind) ∨ ∃ word, NamesNone side word := by
  have htrims : Text.TrimsTo side (String.ofList (Text.trim side.toList)) :=
    Text.trimsTo_iff.mpr rfl
  by_cases hword : ∃ kind : Scalar, kind.NamedBy (String.ofList (Text.trim side.toList))
  · obtain ⟨kind, hkind⟩ := hword
    exact .inl ⟨kind, _, htrims, hkind⟩
  · exact .inr ⟨_, htrims, not_exists.mp hword⟩

/-- Every argument states a rule or is refused. -/
theorem states_or_refused (argument : String) :
    (∃ source target, States argument source target) ∨ ∃ message, Refused argument message := by
  by_cases hmem : '=' ∈ argument.toList
  case neg => exact .inr ⟨_, .noEquals hmem⟩
  case pos =>
    obtain ⟨left, right, hhalves⟩ := exists_halves hmem
    rcases names_or_namesNone left with ⟨source, hleft⟩ | ⟨word, hleft⟩
    · rcases names_or_namesNone right with ⟨target, hright⟩ | ⟨word, hright⟩
      · exact .inl ⟨source, target, left, right, hhalves, hleft, hright⟩
      · exact .inr ⟨_, .target hhalves hleft hright⟩
    · exact .inr ⟨_, .source hhalves hleft⟩

/-! ## The reader -/

theorem Names.sideKind_eq {side : String} {kind : Scalar} (h : Names side kind) :
    sideKind side.toList = .ok kind := by
  obtain ⟨_, htrims, hword⟩ := h
  obtain rfl := Text.trimsTo_iff.mp htrims
  simp only [sideKind, Scalar.ofKeyword?_eq_some_iff.mpr hword]

theorem NamesNone.sideKind_eq {side word : String} (h : NamesNone side word) :
    sideKind side.toList = .error (.unknownKind word) := by
  obtain ⟨htrims, hword⟩ := h
  obtain rfl := Text.trimsTo_iff.mp htrims
  simp only [sideKind, Scalar.ofKeyword?_eq_none_iff.mpr hword]

theorem parseRule_of_not_mem {argument : String} (h : '=' ∉ argument.toList) :
    parseRule argument = .error (.noEquals argument) := by
  have hrest : argument.toList.dropWhile (· ≠ '=') = [] := by
    rw [List.dropWhile_eq_nil_iff]
    intro c hc
    simpa using ne_of_mem_of_not_mem hc h
  rw [parseRule, hrest]

/-- Cut at its first equals sign, an argument is read half by half. -/
theorem Halves.parseRule_eq {argument left right : String} (h : Halves argument left right) :
    parseRule argument = do
      let source ← sideKind left.toList
      let target ← sideKind right.toList
      return (source, target) := by
  have hleft : ∀ c ∈ left.toList, decide (c ≠ '=') = true := by
    intro c hc
    simpa using ne_of_mem_of_not_mem hc h.first
  have hlist : argument.toList = left.toList ++ '=' :: right.toList := by
    simp [h.eq]
  rw [parseRule, hlist, List.dropWhile_append_of_pos hleft, List.takeWhile_append_of_pos hleft]
  simp

section

variable {argument left right word : String} {source : Scalar}

theorem Halves.parseRule_source (h : Halves argument left right) (hleft : NamesNone left word) :
    parseRule argument = .error (.unknownKind word) := by
  rw [h.parseRule_eq, hleft.sideKind_eq]
  rfl

theorem Halves.parseRule_target (h : Halves argument left right) (hleft : Names left source)
    (hright : NamesNone right word) : parseRule argument = .error (.unknownKind word) := by
  rw [h.parseRule_eq, hleft.sideKind_eq, hright.sideKind_eq]
  rfl

end

theorem States.parseRule_eq {argument : String} {source target : Scalar}
    (h : States argument source target) : parseRule argument = .ok (source, target) := by
  obtain ⟨left, right, hhalves, hleft, hright⟩ := h
  rw [hhalves.parseRule_eq, hleft.sideKind_eq, hright.sideKind_eq]
  rfl

theorem Refused.parseRule_eq {argument message : String} (h : Refused argument message) :
    (parseRule argument).mapError RuleError.message = .error message := by
  cases h with
  | noEquals hmem =>
    rw [parseRule_of_not_mem hmem]
    rfl
  | source hhalves hleft =>
    rw [hhalves.parseRule_source hleft]
    rfl
  | target hhalves hleft hright =>
    rw [hhalves.parseRule_target hleft hright]
    rfl

theorem parseRule_eq_ok_iff {argument : String} {source target : Scalar} :
    parseRule argument = .ok (source, target) ↔ States argument source target := by
  refine ⟨fun h => ?_, States.parseRule_eq⟩
  rcases states_or_refused argument with ⟨source', target', hstates⟩ | ⟨message, hrefused⟩
  · cases h.symm.trans hstates.parseRule_eq
    exact hstates
  · have herror := hrefused.parseRule_eq
    rw [h] at herror
    cases herror

theorem parseRule_eq_error_iff {argument message : String} :
    (parseRule argument).mapError RuleError.message = .error message ↔
      Refused argument message := by
  refine ⟨fun h => ?_, Refused.parseRule_eq⟩
  rcases states_or_refused argument with ⟨source, target, hstates⟩ | ⟨message', hrefused⟩
  · rw [hstates.parseRule_eq] at h
    cases h
  · cases h.symm.trans hrefused.parseRule_eq
    exact hrefused

/-! ## Two equals signs, and padding -/

theorem equals_not_mem_whiteSpace : '=' ∉ Text.whiteSpace := by
  decide

theorem Names.equals_not_mem {side : String} {kind : Scalar} (h : Names side kind) :
    '=' ∉ side.toList := by
  obtain ⟨word, htrims, hword⟩ := h
  rw [htrims.padded.mem_iff equals_not_mem_whiteSpace]
  exact fun hmem => absurd (hword.isAlpha hmem) (by decide)

/-- Words with padding around them state a rule, whatever the padding. -/
theorem states_padded {source target : Scalar} {word word' left right : String}
    (hsource : source.NamedBy word) (htarget : target.NamedBy word')
    (hleft : Text.Padded left word) (hright : Text.Padded right word') :
    States (left ++ "=" ++ right) source target := by
  have hnames : Names left source := ⟨word, hsource.trimsTo hleft, hsource⟩
  exact ⟨left, right, ⟨rfl, hnames.equals_not_mem⟩, hnames, word', htarget.trimsTo hright, htarget⟩

theorem parseRule_of_two_le_count {argument : String} (h : 2 ≤ argument.toList.count '=') :
    ∃ word, parseRule argument = .error (.unknownKind word) := by
  have hmem : '=' ∈ argument.toList := List.count_pos_iff.mp (by omega)
  obtain ⟨left, right, hhalves⟩ := exists_halves hmem
  have hright : '=' ∈ right.toList := by
    have hcount : argument.toList.count '=' = 1 + right.toList.count '=' := by
      simp [hhalves.eq, List.count_eq_zero_of_not_mem hhalves.first, Nat.add_comm]
    exact List.count_pos_iff.mp (by omega)
  rcases names_or_namesNone left with ⟨source, hsource⟩ | ⟨word, hnone⟩
  · rcases names_or_namesNone right with ⟨target, htarget⟩ | ⟨word, hnone⟩
    · exact absurd hright htarget.equals_not_mem
    · exact ⟨word, hhalves.parseRule_target hsource hnone⟩
  · exact ⟨word, hhalves.parseRule_source hnone⟩

/-- Exactly the grammar is read, and what is outside it is refused with the text that `Refused`
gives; a second equals sign is never read, and padding never matters. -/
theorem parseRule_grammar (argument : String) :
    (∀ source target, parseRule argument = .ok (source, target) ↔
      ∃ left right, Halves argument left right ∧ Names left source ∧ Names right target) ∧
    (∀ message, (parseRule argument).mapError RuleError.message = .error message ↔
      Refused argument message) ∧
    (2 ≤ argument.toList.count '=' →
      ∃ word, parseRule argument = .error (.unknownKind word)) ∧
    ∀ source target word word' left right, Scalar.NamedBy source word →
      Scalar.NamedBy target word' → Text.Padded left word → Text.Padded right word' →
      argument = left ++ "=" ++ right → parseRule argument = .ok (source, target) := by
  refine ⟨fun _ _ => parseRule_eq_ok_iff, fun _ => parseRule_eq_error_iff,
    parseRule_of_two_le_count, ?_⟩
  rintro source target word word' left right hsource htarget hleft hright rfl
  exact (states_padded hsource htarget hleft hright).parseRule_eq

/-- Padding of several kinds on both sides, with the second word for the kind of the absent value,
and a rule that another one follows. -/
theorem parseRule_grammar_ideographicSpace :
    Text.Padded "\tbool\u00a0" "bool" ∧ Text.Padded "\u3000none" "none" ∧
    parseRule "\tbool\u00a0=\u3000none" = .ok (.bool, .none) ∧
    2 ≤ "int=float=str".toList.count '=' ∧
    ∃ word, parseRule "int=float=str" = .error (.unknownKind word) := by
  have hleft : Text.Padded "\tbool\u00a0" "bool" :=
    ⟨"\t", "\u00a0", by decide, by simp [Text.whiteSpace], by simp [Text.whiteSpace]⟩
  have hright : Text.Padded "\u3000none" "none" :=
    ⟨"\u3000", "", by decide, by simp [Text.whiteSpace], by simp⟩
  have htwice : 2 ≤ "int=float=str".toList.count '=' := by decide
  obtain ⟨_, _, _, hpadded⟩ := parseRule_grammar "\tbool\u00a0=\u3000none"
  obtain ⟨_, _, hspoiled, _⟩ := parseRule_grammar "int=float=str"
  have hread := hpadded .bool .none "bool" "none" _ _ (.keyword .bool) .lowercase hleft hright
    (by decide)
  exact ⟨hleft, hright, hread, htwice, hspoiled htwice⟩

end Command

end Conform
