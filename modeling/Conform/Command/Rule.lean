import Conform.Text.Blank
import Conform.Widening

/-!
# Widening rules as arguments

A rule is written `FROM=TO`, with a scalar keyword on each side of the first equals sign and white
space around either as one likes.
-/

namespace Conform.Command

/-- Why an argument is no rule. -/
inductive RuleError where
  | noEquals (argument : String)
  | unknownKind (word : String)
deriving DecidableEq

def RuleError.message : RuleError → String
  | noEquals argument => "expected FROM=TO, got '" ++ argument ++ "'"
  | unknownKind word => "unknown scalar kind '" ++ word ++ "'"

/-- The kind that a side of a rule names. -/
def sideKind (side : List Char) : Except RuleError Scalar :=
  let word := String.ofList (Text.trim side)
  match Scalar.ofKeyword? word with
  | some kind => .ok kind
  | none => .error (.unknownKind word)

/-- The rule that an argument states; the left side is read first. -/
def parseRule (argument : String) : Except RuleError (Scalar × Scalar) :=
  match argument.toList.dropWhile (· ≠ '=') with
  | [] => .error (.noEquals argument)
  | _ :: right => do
    let source ← sideKind (argument.toList.takeWhile (· ≠ '='))
    let target ← sideKind right
    return (source, target)

end Conform.Command
