import Conform.Json.Basic
import Conform.Json.Token

/-!
# Reading JSON

The reader takes one token at a time. It keeps the arrays and objects that are still open,
innermost first, and what may come next; no depth is too deep for it.
-/

namespace Conform.Json

/-- An array or object that is still open, its parts read so far latest first. A key without text
is kept as such. -/
inductive Enclosing where
  | array (elements : List Json)
  | object (members : List (Option String × Json))
  /-- An object whose next value belongs to `key`. -/
  | member (members : List (Option String × Json)) (key : Option String)

/-- What the reader may meet next. -/
inductive Awaiting where
  | value
  /-- After the opening of an array: a value, or the end. -/
  | elementOrEnd
  /-- After the opening of an object: a key, or the end. -/
  | keyOrEnd
  | key
  | colon
  /-- After a part of an array or object: a comma, or the end. -/
  | commaOrEnd
  /-- The whole text has been read. -/
  | nothing (result : Json)

/-- The reader: what is open, innermost first, and what may come next. -/
structure Reader where
  enclosing : List Enclosing
  awaiting : Awaiting

def ofMembers (members : List (Option String × Json)) : Json :=
  match members.mapM fun member => member.1.map fun key => (key, member.2) with
  | some members => obj members
  | none => unpaired

/-- Puts a value that is complete into what encloses it. -/
def Reader.give (value : Json) : List Enclosing → Option Reader
  | [] => some ⟨[], .nothing value⟩
  | .array elements :: outer => some ⟨.array (value :: elements) :: outer, .commaOrEnd⟩
  | .member members key :: outer => some ⟨.object ((key, value) :: members) :: outer, .commaOrEnd⟩
  | .object _ :: _ => none

/-- The value of a token that is a whole value. -/
def Token.value? : Token → Option Json
  | .null => some .null
  | .bool value => some (.bool value)
  | .nat value => some (.nat value)
  | .numeral spelling => some (.numeral spelling)
  | .str (some text) => some (.str text)
  | .str none => some .unpaired
  | _ => none

/-- Takes a token where a value has to begin. -/
def Reader.begin (enclosing : List Enclosing) (token : Token) : Option Reader :=
  match token with
  | .openArray => some ⟨.array [] :: enclosing, .elementOrEnd⟩
  | .openObject => some ⟨.object [] :: enclosing, .keyOrEnd⟩
  | token => token.value?.bind (give · enclosing)

/-- Takes a token where a key has to stand. -/
def Reader.beginMember (enclosing : List Enclosing) (token : Token) : Option Reader :=
  match token, enclosing with
  | .str key, .object members :: outer => some ⟨.member members key :: outer, .colon⟩
  | _, _ => none

def Reader.step (r : Reader) (token : Token) : Option Reader :=
  match r.awaiting with
  | .value => begin r.enclosing token
  | .elementOrEnd =>
    match token, r.enclosing with
    | .closeArray, .array elements :: outer => give (.arr elements.reverse) outer
    | token, enclosing => begin enclosing token
  | .keyOrEnd =>
    match token, r.enclosing with
    | .closeObject, .object members :: outer => give (ofMembers members.reverse) outer
    | token, enclosing => beginMember enclosing token
  | .key => beginMember r.enclosing token
  | .colon => if token = .colon then some ⟨r.enclosing, .value⟩ else none
  | .commaOrEnd =>
    match token, r.enclosing with
    | .comma, .array elements :: outer => some ⟨.array elements :: outer, .value⟩
    | .comma, .object members :: outer => some ⟨.object members :: outer, .key⟩
    | .closeArray, .array elements :: outer => give (.arr elements.reverse) outer
    | .closeObject, .object members :: outer => give (ofMembers members.reverse) outer
    | _, _ => none
  | .nothing _ => none

/-- The value that has been read when the text ends. -/
def Reader.result? (r : Reader) : Option Json :=
  match r.awaiting with
  | .nothing result => some result
  | _ => none

def ofTokens? (tokens : List Token) : Option Json :=
  (tokens.foldlM Reader.step ⟨[], .value⟩).bind Reader.result?

def read? (text : String) : Option Json :=
  (Token.scan? text.toList).bind ofTokens?

end Conform.Json
