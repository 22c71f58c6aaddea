import Conform.Json.Reader
import Conform.Proofs.Scanner

/-!
# Reading values back

Reading the text of a value gives the value, compact (`read?_compact`) or indented
(`read?_indented`), provided that every number in it is a natural one (`IsWhole`). No other number
has a spelling that the writer could be held to: it is copied as it stands.

The reader keeps a stack of what is still open. The induction is on the value that is written, and
what carries it is that the tokens of a value, wherever a value may begin, hand exactly that value
to what encloses it (`foldlM_tokens`). The stack below it is never looked at.
-/

namespace Conform.Json

/-- What holds of every value without parts, and of an array or object once it holds of each of its
parts, holds of every value. -/
@[elab_as_elim]
theorem induct {motive : Json → Prop} (null : motive .null) (bool : ∀ value, motive (.bool value))
    (nat : ∀ value, motive (.nat value)) (numeral : ∀ spelling, motive (.numeral spelling))
    (str : ∀ text, motive (.str text)) (unpaired : motive .unpaired)
    (arr : ∀ elements, (∀ value ∈ elements, motive value) → motive (.arr elements))
    (obj : ∀ members, (∀ member ∈ members, motive member.2) → motive (.obj members))
    (value : Json) : motive value :=
  match value with
  | .null => null
  | .bool value => bool value
  | .nat value => nat value
  | .numeral spelling => numeral spelling
  | .str text => str text
  | .unpaired => unpaired
  | .arr elements =>
    arr elements fun value h =>
      have := List.sizeOf_lt_of_mem h
      induct null bool nat numeral str unpaired arr obj value
  | .obj members =>
    obj members fun member h =>
      have : sizeOf member.2 < sizeOf members := by
        have h' := List.sizeOf_lt_of_mem h
        obtain ⟨key, value⟩ := member
        simp only [Prod.mk.sizeOf_spec] at h'
        dsimp only
        omega
      induct null bool nat numeral str unpaired arr obj member.2
termination_by sizeOf value

/-! ## The tokens of a value -/

theorem layoutElements_eq_flatMap (indent : Nat) (elements : List Json) :
    layoutElements indent elements = elements.flatMap fun value =>
      .token .comma :: .line indent :: layout indent value := by
  induction elements with
  | nil => rw [layoutElements, List.flatMap_nil]
  | cons value rest ih =>
    rw [layoutElements, ih, List.flatMap_cons, List.cons_append, List.cons_append]

theorem layoutMembers_eq_flatMap (indent : Nat) (members : List (String × Json)) :
    layoutMembers indent members = members.flatMap fun member =>
      .token .comma :: .line indent :: .token (.str (some member.1)) :: .token .colon :: .space
        :: layout indent member.2 := by
  induction members with
  | nil => rw [layoutMembers, List.flatMap_nil]
  | cons member rest ih =>
    obtain ⟨key, value⟩ := member
    rw [layoutMembers, ih, List.flatMap_cons, List.cons_append, List.cons_append,
      List.cons_append, List.cons_append, List.cons_append]

/-- The tokens of an element and of what precedes it in its array. -/
def elementTokens (value : Json) : List Token :=
  .comma :: value.tokens

/-- The tokens of a member of an object. -/
def memberTokens (member : String × Json) : List Token :=
  .str (some member.1) :: .colon :: member.2.tokens

/-- How far a layout is indented makes no difference to its tokens. -/
theorem filterMap_layout (indent : Nat) (value : Json) :
    (layout indent value).filterMap Lexeme.token? = value.tokens := by
  suffices h : ∀ indent indent', (layout indent value).filterMap Lexeme.token? =
      (layout indent' value).filterMap Lexeme.token? from h indent 0
  induction value using induct with
  | null | bool _ | nat _ | numeral _ | str _ | unpaired => intro _ _; rw [layout, layout]
  | arr elements ih =>
    intro indent indent'
    cases elements with
    | nil => rw [layout, layout]
    | cons first rest =>
      have hfirst := ih first List.mem_cons_self (indent + 2) (indent' + 2)
      have hrest : ∀ value ∈ rest,
          Token.comma :: (layout (indent + 2) value).filterMap Lexeme.token? =
            Token.comma :: (layout (indent' + 2) value).filterMap Lexeme.token? := by
        intro value hvalue
        rw [ih value (List.mem_cons_of_mem _ hvalue) (indent + 2) (indent' + 2)]
      simp only [layout, layoutElements_eq_flatMap, List.cons_append, List.filterMap_cons,
        List.filterMap_append, List.filterMap_flatMap, Lexeme.token?, hfirst]
      rw [List.flatMap_congr hrest]
  | obj members ih =>
    intro indent indent'
    cases members with
    | nil => rw [layout, layout]
    | cons member rest =>
      obtain ⟨key, value⟩ := member
      have hfirst := ih (key, value) List.mem_cons_self (indent + 2) (indent' + 2)
      have hrest : ∀ member ∈ rest,
          Token.comma :: .str (some member.1) :: .colon ::
              (layout (indent + 2) member.2).filterMap Lexeme.token? =
            Token.comma :: .str (some member.1) :: .colon ::
              (layout (indent' + 2) member.2).filterMap Lexeme.token? := by
        intro member hmember
        rw [ih member (List.mem_cons_of_mem _ hmember) (indent + 2) (indent' + 2)]
      simp only [layout, layoutMembers_eq_flatMap, List.cons_append, List.filterMap_cons,
        List.filterMap_append, List.filterMap_flatMap, Lexeme.token?, hfirst]
      rw [List.flatMap_congr hrest]

theorem tokens_arr_nil : tokens (.arr []) = [.openArray, .closeArray] := by
  simp [tokens, layout, Lexeme.token?]

theorem tokens_obj_nil : tokens (.obj []) = [.openObject, .closeObject] := by
  simp [tokens, layout, Lexeme.token?]

theorem tokens_arr_cons (first : Json) (rest : List Json) :
    tokens (.arr (first :: rest)) =
      .openArray :: first.tokens ++ rest.flatMap elementTokens ++ [.closeArray] := by
  rw [tokens, layout, layoutElements_eq_flatMap]
  simp only [List.cons_append, List.filterMap_cons, List.filterMap_append, List.filterMap_flatMap,
    Lexeme.token?, filterMap_layout, List.filterMap_nil]
  rfl

theorem tokens_obj_cons (first : String × Json) (rest : List (String × Json)) :
    tokens (.obj (first :: rest)) =
      .openObject :: memberTokens first ++
        rest.flatMap (fun member => .comma :: memberTokens member) ++ [.closeObject] := by
  obtain ⟨key, value⟩ := first
  rw [tokens, layout, layoutMembers_eq_flatMap]
  simp only [List.cons_append, List.filterMap_cons, List.filterMap_append, List.filterMap_flatMap,
    Lexeme.token?, filterMap_layout, List.filterMap_nil]
  rfl

/-! ## The reader on the tokens of a value -/

/-- The tokens of a value where a value has to begin. -/
def Reads (value : Json) : Prop :=
  ∀ enclosing, value.tokens.foldlM Reader.step ⟨enclosing, .value⟩ = Reader.give value enclosing

/-- No value begins with the end of an array. -/
theorem exists_tokens_eq_cons (value : Json) :
    ∃ t ts, value.tokens = t :: ts ∧ t ≠ .closeArray := by
  cases value with
  | null | bool _ | nat _ | numeral _ | str _ | unpaired =>
    simp [tokens, layout, Lexeme.token?]
  | arr elements =>
    cases elements with
    | nil => simp [tokens_arr_nil]
    | cons first rest => simp [tokens_arr_cons]
  | obj members =>
    cases members with
    | nil => simp [tokens_obj_nil]
    | cons first rest => simp [tokens_obj_cons]

/-- So where an array has just been opened, a value is read as anywhere else. -/
theorem foldlM_first (value : Json) (enclosing : List Enclosing) :
    value.tokens.foldlM Reader.step ⟨enclosing, .elementOrEnd⟩ =
      value.tokens.foldlM Reader.step ⟨enclosing, .value⟩ := by
  obtain ⟨t, ts, htokens, ht⟩ := value.exists_tokens_eq_cons
  have hstep : Reader.step ⟨enclosing, .elementOrEnd⟩ t = Reader.step ⟨enclosing, .value⟩ t := by
    cases t with
    | closeArray => exact absurd rfl ht
    | _ => rfl
  rw [htokens, List.foldlM_cons, List.foldlM_cons, hstep]

/-- The elements after the first. -/
theorem foldlM_elements {rest : List Json} (hreads : ∀ value ∈ rest, Reads value)
    (elements : List Json) (outer : List Enclosing) :
    (rest.flatMap elementTokens).foldlM Reader.step ⟨.array elements :: outer, .commaOrEnd⟩ =
      some ⟨.array (rest.reverse ++ elements) :: outer, .commaOrEnd⟩ := by
  induction rest generalizing elements with
  | nil => rfl
  | cons value rest ih =>
    have hvalue : (elementTokens value).foldlM Reader.step ⟨.array elements :: outer, .commaOrEnd⟩ =
        some ⟨.array (value :: elements) :: outer, .commaOrEnd⟩ := by
      rw [elementTokens, List.foldlM_cons]
      exact hreads value List.mem_cons_self (.array elements :: outer)
    rw [List.flatMap_cons, List.foldlM_append, hvalue, Option.bind_eq_bind, Option.bind_some,
      ih (fun other hother => hreads other (List.mem_cons_of_mem _ hother)), List.reverse_cons,
      List.append_assoc]
    rfl

/-- A member, where a key has to stand. -/
theorem foldlM_member {member : String × Json} (hreads : Reads member.2)
    (members : List (Option String × Json)) (outer : List Enclosing) {awaiting : Awaiting}
    (hkey : awaiting = .key ∨ awaiting = .keyOrEnd) :
    (memberTokens member).foldlM Reader.step ⟨.object members :: outer, awaiting⟩ =
      some ⟨.object ((some member.1, member.2) :: members) :: outer, .commaOrEnd⟩ := by
  have hbegin : Reader.step ⟨.object members :: outer, awaiting⟩ (.str (some member.1)) =
      some ⟨.member members (some member.1) :: outer, .colon⟩ := by
    rcases hkey with rfl | rfl <;> rfl
  rw [memberTokens, List.foldlM_cons, hbegin, Option.bind_eq_bind, Option.bind_some,
    List.foldlM_cons]
  exact hreads (.member members (some member.1) :: outer)

/-- The members after the first. -/
theorem foldlM_members {rest : List (String × Json)} (hreads : ∀ member ∈ rest, Reads member.2)
    (members : List (Option String × Json)) (outer : List Enclosing) :
    (rest.flatMap fun member => .comma :: memberTokens member).foldlM Reader.step
        ⟨.object members :: outer, .commaOrEnd⟩ =
      some ⟨.object ((rest.reverse.map fun member => (some member.1, member.2)) ++ members)
        :: outer, .commaOrEnd⟩ := by
  induction rest generalizing members with
  | nil => rfl
  | cons member rest ih =>
    have hmember := foldlM_member (hreads member List.mem_cons_self) members outer (Or.inl rfl)
    have hrun : (Token.comma :: memberTokens member).foldlM Reader.step
        ⟨.object members :: outer, .commaOrEnd⟩ =
        some ⟨.object ((some member.1, member.2) :: members) :: outer, .commaOrEnd⟩ := by
      rw [List.foldlM_cons]
      exact hmember
    rw [List.flatMap_cons, List.foldlM_append, hrun, Option.bind_eq_bind, Option.bind_some,
      ih (fun other hother => hreads other (List.mem_cons_of_mem _ hother)), List.reverse_cons,
      List.map_append, List.append_assoc]
    rfl

/-- Members whose keys all have text make an object. -/
theorem ofMembers_map (members : List (String × Json)) :
    ofMembers (members.map fun member => (some member.1, member.2)) = .obj members := by
  have h : (members.map fun member => (some member.1, member.2)).mapM
      (fun member : Option String × Json => member.1.map fun key => (key, member.2)) =
      some members := by
    rw [List.mapM_map]
    exact List.mapM_pure.trans (congrArg some (List.map_id members))
  rw [ofMembers, h]

/-- The tokens of a value hand it to what encloses them. -/
theorem foldlM_tokens (value : Json) : Reads value := by
  induction value using induct with
  | null | bool _ | nat _ | numeral _ | str _ | unpaired =>
    intro enclosing
    simp [tokens, layout, Lexeme.token?, Reader.step, Reader.begin, Token.value?]
  | arr elements ih =>
    intro enclosing
    cases elements with
    | nil => rw [tokens_arr_nil]; exact Option.bind_fun_some _
    | cons first rest =>
      have hfirst := ih first List.mem_cons_self (.array [] :: enclosing)
      have hrest := foldlM_elements (fun value hvalue => ih value (List.mem_cons_of_mem _ hvalue))
        [first] enclosing
      have hopen : Reader.step ⟨enclosing, .value⟩ .openArray =
          some ⟨.array [] :: enclosing, .elementOrEnd⟩ := rfl
      rw [tokens_arr_cons, List.cons_append, List.cons_append, List.foldlM_cons, hopen,
        Option.bind_eq_bind, Option.bind_some, List.foldlM_append, List.foldlM_append, foldlM_first,
        hfirst]
      show (rest.flatMap elementTokens).foldlM Reader.step
        ⟨.array [first] :: enclosing, .commaOrEnd⟩ >>= _ = _
      rw [hrest, Option.bind_eq_bind, Option.bind_some]
      show Reader.give (.arr (rest.reverse ++ [first]).reverse) enclosing >>= pure = _
      rw [List.reverse_append, List.reverse_reverse]
      exact Option.bind_fun_some _
  | obj members ih =>
    intro enclosing
    cases members with
    | nil => rw [tokens_obj_nil]; exact Option.bind_fun_some _
    | cons first rest =>
      have hfirst := foldlM_member (ih first List.mem_cons_self) [] enclosing (Or.inr rfl)
      have hrest := foldlM_members
        (fun member hmember => ih member (List.mem_cons_of_mem _ hmember))
        [(some first.1, first.2)] enclosing
      have hopen : Reader.step ⟨enclosing, .value⟩ .openObject =
          some ⟨.object [] :: enclosing, .keyOrEnd⟩ := rfl
      rw [tokens_obj_cons, List.cons_append, List.cons_append, List.foldlM_cons, hopen,
        Option.bind_eq_bind, Option.bind_some, List.foldlM_append, List.foldlM_append, hfirst,
        Option.bind_eq_bind, Option.bind_some, hrest, Option.bind_some]
      have hmembers : ofMembers ((rest.reverse.map fun member => (some member.1, member.2)) ++
          [(some first.1, first.2)]).reverse = .obj (first :: rest) := by
        rw [← ofMembers_map]
        simp
      show Reader.give (ofMembers _) enclosing >>= pure = _
      rw [hmembers]
      exact Option.bind_fun_some _

theorem ofTokens?_tokens (value : Json) : ofTokens? value.tokens = some value := by
  rw [ofTokens?, foldlM_tokens value []]
  rfl

/-! ## The tokens in the text -/

/-- Every number in a value is a natural one. -/
inductive IsWhole : Json → Prop
  | null : IsWhole .null
  | bool (value : Bool) : IsWhole (.bool value)
  | nat (value : Nat) : IsWhole (.nat value)
  | str (text : String) : IsWhole (.str text)
  | unpaired : IsWhole .unpaired
  | arr {elements : List Json} (h : ∀ value ∈ elements, IsWhole value) : IsWhole (.arr elements)
  | obj {members : List (String × Json)} (h : ∀ member ∈ members, IsWhole member.2) :
      IsWhole (.obj members)

theorem numeral_not_mem_tokens {value : Json} (h : value.IsWhole) (spelling : String) :
    .numeral spelling ∉ value.tokens := by
  induction value using induct with
  | null | bool _ | nat _ | str _ | unpaired => simp [tokens, layout, Lexeme.token?]
  | numeral _ => cases h
  | arr elements ih =>
    cases h with
    | arr h =>
      cases elements with
      | nil => simp [tokens, layout, Lexeme.token?]
      | cons first rest =>
        have hall := fun value hvalue => ih value hvalue (h value hvalue)
        rw [List.forall_mem_cons] at hall
        simp [tokens_arr_cons, elementTokens, hall.1]
        exact hall.2
  | obj members ih =>
    cases h with
    | obj h =>
      cases members with
      | nil => simp [tokens, layout, Lexeme.token?]
      | cons first rest =>
        have hall := fun member hmember => ih member hmember (h member hmember)
        rw [List.forall_mem_cons] at hall
        simp [tokens_obj_cons, memberTokens, hall.1]
        exact fun key value hmem => hall.2 (key, value) hmem

/-- Tokens that may stand after a value: they do not begin with a word or number. -/
structure Follows (ts : List Token) : Prop where
  parted : ts.IsChain fun t t' => t.isBare = true → t'.isBare = false
  head : ∀ t ∈ ts.head?, t.isBare = false

theorem follows_cons {t : Token} {ts : List Token} (ht : t.isBare = false)
    (hts : ts.IsChain fun t t' => t.isBare = true → t'.isBare = false) : Follows (t :: ts) where
  parted := List.isChain_cons.mpr ⟨fun _ _ hbare => absurd hbare (by simp [ht]), hts⟩
  head := by simpa using ht

/-- What is put before tokens that may follow a value, one thing after another, may follow one if
each thing may. -/
theorem Follows.flatMap {α : Type} {write : α → List Token} {as : List α}
    (h : ∀ a ∈ as, ∀ {ts : List Token}, Follows ts → Follows (write a ++ ts)) {ts : List Token}
    (hts : Follows ts) : Follows (as.flatMap write ++ ts) := by
  induction as with
  | nil => exact hts
  | cons a rest ih =>
    rw [List.forall_mem_cons] at h
    rw [List.flatMap_cons, List.append_assoc]
    exact h.1 (ih h.2)

/-- In the tokens of a value, and of what follows it, no two words or numbers stand side by side. -/
theorem parted_tokens_append (value : Json) {ts : List Token} (hts : Follows ts) :
    (value.tokens ++ ts).IsChain fun t t' => t.isBare = true → t'.isBare = false := by
  induction value using induct generalizing ts with
  | null | bool _ | nat _ | numeral _ | str _ | unpaired =>
    simp only [tokens, layout, List.filterMap_cons, Lexeme.token?, List.filterMap_nil,
      List.singleton_append]
    exact List.isChain_cons.mpr ⟨fun t ht _ => hts.head t ht, hts.parted⟩
  | arr elements ih =>
    cases elements with
    | nil =>
      rw [tokens_arr_nil]
      exact (follows_cons rfl (follows_cons rfl hts.parted).parted).parted
    | cons first rest =>
      have hclose : Follows (.closeArray :: ts) := follows_cons rfl hts.parted
      have helement : ∀ value ∈ rest, ∀ {ts : List Token}, Follows ts →
          Follows (elementTokens value ++ ts) := fun value hmem ts hts => by
        rw [elementTokens, List.cons_append]
        exact follows_cons rfl (ih value (List.mem_cons_of_mem _ hmem) hts)
      have hfirst := ih first List.mem_cons_self (Follows.flatMap helement hclose)
      simpa [tokens_arr_cons] using (follows_cons rfl hfirst).parted
  | obj members ih =>
    cases members with
    | nil =>
      rw [tokens_obj_nil]
      exact (follows_cons rfl (follows_cons rfl hts.parted).parted).parted
    | cons first rest =>
      have hclose : Follows (.closeObject :: ts) := follows_cons rfl hts.parted
      have hmember : ∀ member ∈ first :: rest, ∀ {ts : List Token}, Follows ts →
          Follows (memberTokens member ++ ts) := fun member hmem ts hts => by
        rw [memberTokens, List.cons_append, List.cons_append]
        exact follows_cons rfl (follows_cons rfl (ih member hmem hts)).parted
      have hnext : ∀ member ∈ rest, ∀ {ts : List Token}, Follows ts →
          Follows ((.comma :: memberTokens member) ++ ts) := fun member hmem ts hts =>
        follows_cons rfl (hmember member (List.mem_cons_of_mem _ hmem) hts).parted
      have hfirst := hmember first List.mem_cons_self (Follows.flatMap hnext hclose)
      simpa [tokens_obj_cons] using (follows_cons rfl hfirst.parted).parted

/-- Blanks part words and numbers as well as tokens do. -/
theorem parted_of_tokens {ls : List Lexeme}
    (h : (ls.filterMap Lexeme.token?).IsChain fun t t' => t.isBare = true → t'.isBare = false) :
    Parted ls := by
  induction ls with
  | nil => exact List.isChain_nil
  | cons l rest ih =>
    cases l with
    | space | line _ => exact List.isChain_cons.mpr ⟨fun _ _ => nofun, ih h⟩
    | token t =>
      rw [List.filterMap_cons_some (show (Lexeme.token t).token? = some t from rfl),
        List.isChain_cons] at h
      refine List.isChain_cons.mpr ⟨fun l' hl' hbare => ?_, ih h.2⟩
      cases l' with
      | space | line _ => rfl
      | token t' =>
        -- The tokens stand side by side in the text, and so among the tokens.
        refine h.1 t' ?_ hbare
        obtain ⟨rest', rfl⟩ := List.head?_eq_some_iff.mp hl'
        rfl

/-- However the tokens of a value are laid out, the text is read as that value. -/
theorem read?_of_tokens {value : Json} (h : value.IsWhole) {ls : List Lexeme}
    (hls : ls.filterMap Lexeme.token? = value.tokens) :
    read? (String.ofList (ls.flatMap Lexeme.chars)) = some value := by
  have hparted : Parted ls := by
    have htokens := value.parted_tokens_append ⟨List.isChain_nil, by simp⟩
    rw [List.append_nil] at htokens
    exact parted_of_tokens (hls ▸ htokens)
  have hplain : ∀ spelling, Lexeme.token (.numeral spelling) ∉ ls := by
    intro spelling hmem
    refine numeral_not_mem_tokens h spelling ?_
    rw [← hls]
    exact List.mem_filterMap.mpr ⟨_, hmem, rfl⟩
  rw [read?, String.toList_ofList, scan?_flatMap_chars hparted hplain, hls, Option.bind_some,
    ofTokens?_tokens]

theorem read?_compact {value : Json} (h : value.IsWhole) : read? value.compact = some value := by
  have htokens : (value.tokens.map Lexeme.token).filterMap Lexeme.token? = value.tokens := by
    rw [List.filterMap_map]
    exact List.filterMap_some
  have hread := read?_of_tokens h htokens
  rwa [List.flatMap_map] at hread

theorem read?_indented {value : Json} (h : value.IsWhole) : read? value.indented = some value :=
  read?_of_tokens h (filterMap_layout 0 value)

end Conform.Json
