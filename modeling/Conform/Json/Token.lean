/-!
# The words of JSON text

JSON text is a sequence of tokens with blanks between them: punctuation, the three words, numbers
and strings. The scanner is a machine that takes one character at a time; a word or a number ends
where a character comes that cannot continue it, and that character is then taken again.

A string's escapes name 16-bit units. Two units that form a surrogate pair are one character, and
a string in which half of a pair stands alone has no text (`Token.str none`).
-/

namespace Conform.Json

/-- A token of JSON text. -/
inductive Token where
  | openArray
  | closeArray
  | openObject
  | closeObject
  | comma
  | colon
  | null
  | bool (value : Bool)
  | nat (value : Nat)
  | numeral (spelling : String)
  | str (text : Option String)
deriving DecidableEq

namespace Token

/-! ## Words and numbers -/

def ofWord? (letters : List Char) : Option Token :=
  if letters = ['n', 'u', 'l', 'l'] then some null
  else if letters = ['t', 'r', 'u', 'e'] then some (bool true)
  else if letters = ['f', 'a', 'l', 's', 'e'] then some (bool false)
  else none

def afterDigits? : List Char → Option (List Char)
  | [] => none
  | c :: cs => if c.isDigit then some (cs.dropWhile Char.isDigit) else none

/-- What follows the digits before the point: a first digit `0` stands alone. -/
def afterWhole? : List Char → Option (List Char)
  | [] => none
  | c :: cs =>
    if c = '0' then some cs
    else if c.isDigit then some (cs.dropWhile Char.isDigit)
    else none

def afterFraction? : List Char → Option (List Char)
  | '.' :: cs => afterDigits? cs
  | cs => some cs

def afterExponent? : List Char → Option (List Char)
  | [] => some []
  | c :: cs =>
    if c = 'e' ∨ c = 'E' then
      match cs with
      | '+' :: ds => afterDigits? ds
      | '-' :: ds => afterDigits? ds
      | ds => afterDigits? ds
    else some (c :: cs)

/-- Whether characters spell a number: a sign, digits, a fraction and an exponent. -/
def spellsNumber (cs : List Char) : Bool :=
  let unsigned := match cs with
    | '-' :: ds => ds
    | ds => ds
  (afterWhole? unsigned >>= afterFraction? >>= afterExponent?) == some []

/-- The token of a number: digits alone are a natural number. -/
def ofNumber? (cs : List Char) : Option Token :=
  if spellsNumber cs then
    if cs.all Char.isDigit then some (nat (Nat.ofDigitChars 10 cs 0))
    else some (numeral (String.ofList cs))
  else none

/-! ## Strings -/

/-- A piece of a string as it is spelled: a character, or a 16-bit unit named by an escape. -/
inductive Piece where
  | char (c : Char)
  | unit (value : Nat)

/-- Whether a unit is the first half of a surrogate pair. -/
def isHigh (unit : Nat) : Bool :=
  0xd800 ≤ unit && unit < 0xdc00

/-- Whether a unit is the second half of a surrogate pair. -/
def isLow (unit : Nat) : Bool :=
  0xdc00 ≤ unit && unit < 0xe000

def joined (high low : Nat) : Char :=
  Char.ofNat (0x10000 + (high - 0xd800) * 0x400 + (low - 0xdc00))

/-- The text of the pieces, last piece first, put before `text`; nothing if half of a surrogate
pair stands alone. -/
def assemble (text : List Char) : List Piece → Option (List Char)
  | [] => some text
  | .char c :: rest => assemble (c :: text) rest
  | .unit unit :: rest =>
    if isLow unit then
      match rest with
      | .unit high :: rest' =>
        if isHigh high then assemble (joined high unit :: text) rest' else none
      | _ => none
    else if isHigh unit then none
    else assemble (Char.ofNat unit :: text) rest

/-- The token of a string, from its pieces, last piece first. -/
def ofPieces (pieces : List Piece) : Token :=
  str ((assemble [] pieces).map String.ofList)

def unescaped? (c : Char) : Option Char :=
  match c with
  | '"' => some '"'
  | '\\' => some '\\'
  | '/' => some '/'
  | 'b' => some '\x08'
  | 'f' => some '\x0c'
  | 'n' => some '\n'
  | 'r' => some '\r'
  | 't' => some '\t'
  | _ => none

/-- The value of a hexadecimal digit, in either case. -/
def hexValue? (c : Char) : Option Nat :=
  if c.isDigit then some (c.toNat - '0'.toNat)
  else if 'a' ≤ c ∧ c ≤ 'f' then some (c.toNat - 'a'.toNat + 10)
  else if 'A' ≤ c ∧ c ≤ 'F' then some (c.toNat - 'A'.toNat + 10)
  else none

/-! ## The scanner -/

/-- What the scanner is in the middle of. Parts read so far have the latest first. -/
inductive Mode where
  | between
  | word (letters : List Char)
  | number (chars : List Char)
  | string (pieces : List Piece)
  | escape (pieces : List Piece)
  /-- In an escape of four hexadecimal digits: how many are to come after the next one, and the
  value of those read. -/
  | unit (pieces : List Piece) (digits : Nat) (value : Nat)

/-- The scanner: the tokens read so far, latest first, and what it is in the middle of. -/
structure Scanner where
  tokens : List Token
  mode : Mode

/-- The four blanks of JSON text. -/
def isBlank (c : Char) : Bool :=
  c = ' ' || c = '\t' || c = '\n' || c = '\r'

def continuesNumber (c : Char) : Bool :=
  c.isDigit || c = '.' || c = 'e' || c = 'E' || c = '+' || c = '-'

def ofPunctuation? (c : Char) : Option Token :=
  match c with
  | '[' => some openArray
  | ']' => some closeArray
  | '\x7b' => some openObject
  | '\x7d' => some closeObject
  | ',' => some comma
  | ':' => some colon
  | _ => none

def Scanner.start (tokens : List Token) (c : Char) : Option Scanner :=
  if isBlank c then some ⟨tokens, .between⟩
  else if c = '"' then some ⟨tokens, .string []⟩
  else if c.isDigit || c = '-' then some ⟨tokens, .number [c]⟩
  else if c.isLower then some ⟨tokens, .word [c]⟩
  else (ofPunctuation? c).map fun token => ⟨token :: tokens, .between⟩

def Scanner.step (s : Scanner) (c : Char) : Option Scanner :=
  match s.mode with
  | .between => start s.tokens c
  | .word letters =>
    if c.isLower then some ⟨s.tokens, .word (c :: letters)⟩
    else (ofWord? letters.reverse).bind fun token => start (token :: s.tokens) c
  | .number chars =>
    if continuesNumber c then some ⟨s.tokens, .number (c :: chars)⟩
    else (ofNumber? chars.reverse).bind fun token => start (token :: s.tokens) c
  | .string pieces =>
    if c = '"' then some ⟨ofPieces pieces :: s.tokens, .between⟩
    else if c = '\\' then some ⟨s.tokens, .escape pieces⟩
    else if c.toNat < 0x20 then none
    else some ⟨s.tokens, .string (.char c :: pieces)⟩
  | .escape pieces =>
    if c = 'u' then some ⟨s.tokens, .unit pieces 3 0⟩
    else (unescaped? c).map fun c' => ⟨s.tokens, .string (.char c' :: pieces)⟩
  | .unit pieces digits value =>
    (hexValue? c).map fun digit =>
      match digits with
      | 0 => ⟨s.tokens, .string (.unit (16 * value + digit) :: pieces)⟩
      | digits + 1 => ⟨s.tokens, .unit pieces digits (16 * value + digit)⟩

/-- The tokens read when the text ends, in the order of the text. -/
def Scanner.finish? (s : Scanner) : Option (List Token) :=
  match s.mode with
  | .between => some s.tokens.reverse
  | .word letters => (ofWord? letters.reverse).map fun token => (token :: s.tokens).reverse
  | .number chars => (ofNumber? chars.reverse).map fun token => (token :: s.tokens).reverse
  | _ => none

def scan? (text : List Char) : Option (List Token) :=
  (text.foldlM Scanner.step ⟨[], .between⟩).bind Scanner.finish?

end Token

end Conform.Json
