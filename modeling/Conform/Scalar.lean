/-!
# Scalar kinds

The kinds of value without inner structure. Each is written with one keyword; the kind of the
absent value is written `None` and may also be read from `none`.
-/

namespace Conform

/-- A kind of value without inner structure. -/
inductive Scalar where
  | int
  | float
  | str
  | bytes
  | bool
  | none
deriving DecidableEq

namespace Scalar

/-- Every kind, in the order in which listings show them. -/
def all : List Scalar :=
  [int, float, str, bytes, bool, none]

/-- The word that stands for the kind in a type. -/
def keyword : Scalar → String
  | int => "int"
  | float => "float"
  | str => "str"
  | bytes => "bytes"
  | bool => "bool"
  | none => "None"

def ofKeyword? (word : String) : Option Scalar :=
  match word with
  | "int" => some int
  | "float" => some float
  | "str" => some str
  | "bytes" => some bytes
  | "bool" => some bool
  | "None" => some none
  | "none" => some none
  | _ => .none

@[simp] theorem ofKeyword?_keyword (k : Scalar) : ofKeyword? k.keyword = some k := by
  cases k <;> rfl

theorem mem_all (k : Scalar) : k ∈ all := by
  cases k <;> decide

end Scalar

end Conform
