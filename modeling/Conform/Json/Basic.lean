/-!
# JSON values

The values that JSON text denotes, with the members of an object in the order of the text and
repeated keys kept. Natural numbers are read exactly, whatever their size; every other number is
kept as it is spelled, since nothing here computes with it.

JSON text can also spell what is no text at all: a string with half of a surrogate pair. Such a
string, and an object with such a key, is the value `unpaired`. It may stand where a value is
skipped, and nowhere else.
-/

namespace Conform

/-- A JSON value. -/
inductive Json where
  | null
  | bool (value : Bool)
  | nat (value : Nat)
  /-- A number that is negative or has a fraction or an exponent, as spelled. -/
  | numeral (spelling : String)
  | str (text : String)
  /-- A string with an unpaired surrogate, or an object with such a key. -/
  | unpaired
  | arr (elements : List Json)
  | obj (members : List (String × Json))
deriving Inhabited

namespace Json

def text? : Json → Option String
  | str text => some text
  | _ => none

def bool? : Json → Option Bool
  | bool value => some value
  | _ => none

def elements? : Json → Option (List Json)
  | arr elements => some elements
  | _ => none

/-- The value of the first member with the given key. -/
def get? (value : Json) (key : String) : Option Json :=
  match value with
  | obj members => (members.find? fun member => member.1 = key).map Prod.snd
  | _ => none

end Json

end Conform
