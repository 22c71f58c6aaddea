/-!
# Text without terminal control sequences

Words that come from outside may hold control sequences that a terminal would obey: colours, titles,
movements of the cursor. The plain text leaves them out, and the control characters with them,
except for white space. A sequence is read as terminals read it:

* the escape character opens a sequence, wherever it stands, and abandons one that is open, as the
  characters `18` and `1A` do without opening another;
* `[` after it opens a control sequence, which the first character from `@` to `~` ends;
* `]` opens an operating system command, which the bell ends;
* `X`, `^` and `_` open strings, which the byte `9C` ends, even as a part of a character;
* `P` opens a device control string, which is such a string after a header of parameters, from `0`
  to `?`, and intermediate characters, from the space to `/`; the header ends with a character
  from `@` to `~`, or with a parameter that comes too late: one from `<` to `?` that is not the
  first, or any after an intermediate character;
* any other character ends the sequence, after intermediate ones.

The characters of a sequence are not text. White space inside a sequence that is no string is
text all the same; what follows it is text up to the next control character, with which the
sequence goes on.
-/

namespace Conform.Terminal

/-- How far a sequence has been read. -/
inductive Sequence where
  | none
  | escape
  | intermediate
  | control
  /-- A device control string of which nothing has been read. -/
  | device
  | deviceParameters
  | deviceIntermediate
  | string
  | command
deriving DecidableEq

namespace Sequence

def isBlankControl (c : Char) : Bool :=
  c = '\t' || c = '\n' || c = '\x0c' || c = '\r'

/-- Whether a character outside of any sequence is text. -/
def isText (c : Char) : Bool :=
  isBlankControl c || (0x20 ≤ c.toNat && c ≠ '\x7f')

/-- Whether one of the bytes of a character is `9C`. -/
def holdsTerminator (c : Char) : Bool :=
  (String.utf8EncodeChar c).contains 0x9c

def isIntermediate (c : Char) : Bool :=
  ' ' ≤ c && c ≤ '/'

def next (s : Sequence) (c : Char) : Sequence :=
  if c = '\x1b' then escape
  else if c = '\x18' || c = '\x1a' then none
  else
    match s with
    | none => none
    | escape =>
      if c = '[' then control
      else if c = ']' then command
      else if c = 'P' then device
      else if c = 'X' || c = '^' || c = '_' then string
      else if isIntermediate c then intermediate
      else if '0' ≤ c && c ≤ '~' then none
      else escape
    | intermediate => if '0' ≤ c && c ≤ '~' then none else intermediate
    | control => if '@' ≤ c && c ≤ '~' then none else control
    | device =>
      if isIntermediate c then deviceIntermediate
      else if '0' ≤ c && c ≤ '?' then deviceParameters
      else if '@' ≤ c && c ≤ '~' then string
      else device
    | deviceParameters =>
      if isIntermediate c then deviceIntermediate
      else if '<' ≤ c && c ≤ '~' then string
      else deviceParameters
    | deviceIntermediate => if '0' ≤ c && c ≤ '~' then string else deviceIntermediate
    | string => if holdsTerminator c then none else string
    | command => if c = '\x07' then none else command

/-- Whether a character that the sequence meets is text. -/
def shows (s : Sequence) (c : Char) : Bool :=
  match s with
  | none => isText c
  | escape | intermediate | control => isBlankControl c
  | device | deviceParameters | deviceIntermediate | string | command => false

/-- The text in characters that the sequence meets, given whether white space has suspended it. A
character that is not ASCII ends a suspended sequence. -/
def text (s : Sequence) (suspended : Bool) : List Char → List Char
  | [] => []
  | c :: rest =>
    if suspended && isText c then
      c :: text (if c.toNat < 0x80 then s else none) true rest
    else if s.shows c then c :: text (s.next c) true rest
    else text (s.next c) false rest

end Sequence

/-- The text without control sequences and without controls that are no white space. -/
def plain (text : String) : String :=
  String.ofList (Sequence.none.text false text.toList)

end Conform.Terminal
