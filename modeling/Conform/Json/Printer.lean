import Conform.Json.Basic
import Conform.Json.Token

/-!
# Writing JSON

A value is laid out as tokens with blanks between them. The compact text leaves the blanks out; the
indented text has one element or member a line, two spaces deeper than what encloses it, and a
space after the colon. An empty array or object stays on its line in both.
-/

namespace Conform.Json

/-! ## The text of a token -/

/-- What stands for one character in a string: only the quote, the backslash and the controls
below the space need an escape. -/
def escaped (c : Char) : List Char :=
  if c = '"' then ['\\', '"']
  else if c = '\\' then ['\\', '\\']
  else if c = '\x08' then ['\\', 'b']
  else if c = '\x0c' then ['\\', 'f']
  else if c = '\n' then ['\\', 'n']
  else if c = '\r' then ['\\', 'r']
  else if c = '\t' then ['\\', 't']
  else if c.toNat < 0x20 then
    ['\\', 'u', '0', '0', Nat.digitChar (c.toNat / 16), Nat.digitChar (c.toNat % 16)]
  else [c]

/-- The characters of a token. A string without text is written as half of a surrogate pair. -/
def Token.chars : Token → List Char
  | .openArray => ['[']
  | .closeArray => [']']
  | .openObject => ['\x7b']
  | .closeObject => ['\x7d']
  | .comma => [',']
  | .colon => [':']
  | .null => ['n', 'u', 'l', 'l']
  | .bool true => ['t', 'r', 'u', 'e']
  | .bool false => ['f', 'a', 'l', 's', 'e']
  | .nat value => Nat.toDigits 10 value
  | .numeral spelling => spelling.toList
  | .str (some text) => '"' :: text.toList.flatMap escaped ++ ['"']
  | .str none => ['"', '\\', 'u', 'd', '8', '0', '0', '"']

/-! ## Layout -/

/-- A part of a text: a token, or blanks. -/
inductive Lexeme where
  | token (token : Token)
  | space
  /-- A new line, indented by so many spaces. -/
  | line (indent : Nat)

def Lexeme.token? : Lexeme → Option Token
  | .token t => some t
  | _ => none

def Lexeme.chars : Lexeme → List Char
  | .token t => t.chars
  | .space => [' ']
  | .line indent => '\n' :: List.replicate indent ' '

mutual

/-- The parts of a value whose first line is indented by `indent` spaces. -/
def layout (indent : Nat) : Json → List Lexeme
  | .null => [.token .null]
  | .bool value => [.token (.bool value)]
  | .nat value => [.token (.nat value)]
  | .numeral spelling => [.token (.numeral spelling)]
  | .str text => [.token (.str (some text))]
  | .unpaired => [.token (.str none)]
  | .arr [] => [.token .openArray, .token .closeArray]
  | .arr (first :: rest) =>
    .token .openArray :: .line (indent + 2) :: layout (indent + 2) first
      ++ layoutElements (indent + 2) rest ++ [.line indent, .token .closeArray]
  | .obj [] => [.token .openObject, .token .closeObject]
  | .obj ((key, value) :: rest) =>
    .token .openObject :: .line (indent + 2) :: .token (.str (some key)) :: .token .colon :: .space
      :: layout (indent + 2) value
      ++ layoutMembers (indent + 2) rest ++ [.line indent, .token .closeObject]

/-- The parts of the elements after the first. -/
def layoutElements (indent : Nat) : List Json → List Lexeme
  | [] => []
  | value :: rest =>
    .token .comma :: .line indent :: layout indent value ++ layoutElements indent rest

/-- The parts of the members after the first. -/
def layoutMembers (indent : Nat) : List (String × Json) → List Lexeme
  | [] => []
  | (key, value) :: rest =>
    .token .comma :: .line indent :: .token (.str (some key)) :: .token .colon :: .space
      :: layout indent value ++ layoutMembers indent rest

end

def tokens (value : Json) : List Token :=
  (layout 0 value).filterMap Lexeme.token?

def compact (value : Json) : String :=
  String.ofList (value.tokens.flatMap Token.chars)

/-- The text of a value with one element or member a line. -/
def indented (value : Json) : String :=
  String.ofList ((layout 0 value).flatMap Lexeme.chars)

end Conform.Json
