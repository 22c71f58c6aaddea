import Conform.Json.Basic

/-!
# Structures and variants in JSON

How structured data is spelled in JSON. A structure with named parts is an object, whose keys may
come in any order and may include others, or an array of all its parts in their own order. A
variant is an object with one member: the key names the variant and the value is its content.
-/

namespace Conform.Json

/-- The parts of a structure, in the order of `names`; nothing for a part that the object leaves
out. A key of the structure must not be repeated, any other may be. -/
def parts? (names : List String) : Json → Option (List (Option Json))
  | arr elements => if elements.length = names.length then some (elements.map some) else none
  | obj members =>
    if ((members.map Prod.fst).filter (names.contains ·)).Nodup then
      some (names.map fun name => (members.find? fun member => member.1 = name).map Prod.snd)
    else none
  | _ => none

def variant? : Json → Option (String × Json)
  | obj [member] => some member
  | _ => none

end Conform.Json
