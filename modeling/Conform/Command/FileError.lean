/-!
# Files that cannot be read

The reasons why there is no text to be had from a file. Those that the system gives have a number,
and the usual ones have words of their own.
-/

namespace Conform.Command

/-- Why a file cannot be read as text. -/
inductive FileError where
  | notFound
  | permissionDenied
  | notADirectory
  | isADirectory
  | nameTooLong
  | tooManyLinks
  /-- The contents are not UTF-8. -/
  | notText
  | other (code : Nat) (words : String)
deriving DecidableEq

/-- The reason that the system gives by a number, and words for it. -/
def FileError.ofCode (code : Nat) (words : String) : FileError :=
  match code with
  | 2 => notFound
  | 13 => permissionDenied
  | 20 => notADirectory
  | 21 => isADirectory
  | 36 => nameTooLong
  | 40 => tooManyLinks
  | code => other code words

def FileError.message : FileError → String
  | notFound => "No such file or directory (os error 2)"
  | permissionDenied => "Permission denied (os error 13)"
  | notADirectory => "Not a directory (os error 20)"
  | isADirectory => "Is a directory (os error 21)"
  | nameTooLong => "File name too long (os error 36)"
  | tooManyLinks => "Too many levels of symbolic links (os error 40)"
  | notText => "stream did not contain valid UTF-8"
  | other code words => words ++ " (os error " ++ Nat.repr code ++ ")"

end Conform.Command
