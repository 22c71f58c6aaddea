import Conform.Text.Quoted

/-!
# Mismatches

Why a value or a type does not fit where a type is expected, and where inside them the reason lies:
a path of fields, arguments and return values, outermost first.
-/

namespace Conform

/-- A step from a type or a value to one of its parts. -/
inductive Segment where
  | field (name : String)
  | argument (index : Nat)
  | result
deriving DecidableEq

def Segment.text : Segment → String
  | .field name => "field " ++ Text.quoted name
  | .argument index => "argument " ++ Nat.repr index
  | .result => "return value"

/-- How a path is shown: nothing at the root. -/
def pathText (path : List Segment) : String :=
  ", ".intercalate (path.map Segment.text)

/-- What is said of a path after the thing that it locates. -/
def pathSuffix (path : List Segment) : String :=
  if path.isEmpty then "" else " at " ++ pathText path

/-- Why something does not fit. -/
inductive Reason where
  /-- The two have different forms, or are scalars that no rule reconciles. -/
  | incompatible (expected found : String)
  /-- A required field is absent. -/
  | missingKey (key : String)
  /-- A required field may be absent. -/
  | optionalKey (key : String)
  /-- A dict literal has an entry for no field. -/
  | extraKey (key : String)
  /-- The numbers of arguments or parameters differ. -/
  | arity (expected found : Nat)
deriving DecidableEq

def Reason.text : Reason → String
  | .incompatible expected found => "expected " ++ expected ++ ", found " ++ found
  | .missingKey key => "missing required key " ++ Text.quoted key
  | .optionalKey key => "key " ++ Text.quoted key ++ " is required but may be missing"
  | .extraKey key => "unexpected key " ++ Text.quoted key
  | .arity expected found =>
    "expected " ++ Nat.repr expected ++ " arguments, found " ++ Nat.repr found

/-- A reason and the place where it holds. -/
structure Mismatch where
  reason : Reason
  path : List Segment
deriving DecidableEq

/-- The mismatch whose reason holds of the whole. -/
def Reason.atRoot (reason : Reason) : Mismatch :=
  ⟨reason, []⟩

/-- The mismatch of the whole whose part at `segment` has this mismatch. -/
def Mismatch.within (segment : Segment) (m : Mismatch) : Mismatch :=
  { m with path := segment :: m.path }

/-- What is said about it: the reason and then its place. -/
def Mismatch.message (m : Mismatch) : String :=
  m.reason.text ++ pathSuffix m.path

end Conform
