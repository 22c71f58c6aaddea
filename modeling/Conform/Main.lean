import Conform.Command.Run

/-!
# The command

The outer layer: files are read and lines are written here, and nothing is decided.
-/

namespace Conform.Main

open Command

/-- The number of a system error, which some calls give with its sign changed. -/
def errorNumber (code : UInt32) : Nat :=
  (if code < 0x80000000 then code else 0 - code).toNat

/-- Why the system does not let a file be read. -/
def cause : IO.Error → FileError
  | .noFileOrDirectory _ code words => .ofCode (errorNumber code) words
  | .permissionDenied _ code words => .ofCode (errorNumber code) words
  | .inappropriateType _ code words => .ofCode (errorNumber code) words
  | .invalidArgument _ code words => .ofCode (errorNumber code) words
  | .otherError code words => .ofCode (errorNumber code) words
  | error => .other 0 (toString error)

def read (file : String) : IO (Except FileError String) := do
  try
    match String.fromUTF8? (← IO.FS.readBinFile file) with
    | some text => return .ok text
    | none => return .error .notText
  catch error => return .error (cause error)

end Conform.Main

def main (arguments : List String) : IO UInt32 := do
  let result ← Conform.Command.run Conform.Main.read arguments
  IO.print (Conform.Command.ended result.out)
  IO.eprint (Conform.Command.ended result.err)
  return result.status.toUInt32
