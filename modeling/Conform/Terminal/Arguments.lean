import Conform.Terminal.Alike
import Conform.Terminal.Stop

/-!
# The arguments of the command

The command is given as `check FILE` with options, or asks for help or the version. The arguments
are taken one at a time. An option without an attached value waits for one, and what waits is
stored only when the next option or file comes or the arguments end; so an argument that nothing
can be made of is reported before a bad value that stands in front of it. After `--` everything is
a file.
-/

namespace Conform.Terminal

open Command (CheckArguments Format parseRule)

/-! ## Single arguments -/

/-- An argument by its form. -/
inductive Argument where
  | word (text : String)
  | separator
  | long (name : String) (attached : Option String)
  | short (letters : List Char)

/-- The form of an argument: a lone hyphen is a word. -/
def Argument.ofString (text : String) : Argument :=
  match text.toList with
  | ['-', '-'] => separator
  | '-' :: '-' :: rest =>
    long (String.ofList (rest.takeWhile (· ≠ '=')))
      (match rest.dropWhile (· ≠ '=') with
        | [] => none
        | _ :: value => some (String.ofList value))
  | '-' :: letter :: rest => short (letter :: rest)
  | _ => word text

/-- An option that takes no value. -/
inductive Flag where
  | verbose
  | help
  | version
deriving DecidableEq

/-- The flag with the given name; only the command itself has a version. -/
def Flag.ofLong? (topic : Topic) (name : String) : Option Flag :=
  match name with
  | "verbose" => some verbose
  | "help" => some help
  | "version" => if topic = .command then some version else none
  | _ => none

def Flag.ofShort? (topic : Topic) (letter : Char) : Option Flag :=
  match letter with
  | 'v' => some verbose
  | 'h' => some help
  | 'V' => if topic = .command then some version else none
  | _ => none

/-- Raises a flag, given whether `verbose` has been raised, and says so of `verbose` after it. -/
def Flag.raise (topic : Topic) (verbose : Bool) : Flag → Except Stop Bool
  | .verbose => if verbose then .error (.usage (.repeated "--verbose")) else .ok true
  | .help => .error (.help topic)
  | .version => .error .version

def raiseLetter (topic : Topic) (verbose : Bool) (letter : Char) : Except Stop Bool :=
  match Flag.ofShort? topic letter with
  | some flag => flag.raise topic verbose
  | none => .error (.usage (.unexpectedArgument (String.ofList ['-', letter])))

/-! ## The arguments of `check` -/

/-- The arguments of `check` taken so far. -/
structure Draft where
  file : Option String
  source : Option String
  rules : List (Scalar × Scalar)
  format : Option Format
  verbose : Bool
  /-- A place that waits, for its value or with it. -/
  pending : Option (Slot × Option String)
  /-- Whether `--` has come. -/
  onlyFiles : Bool

namespace Draft

def empty : Draft := ⟨none, none, [], none, false, none, false⟩

def store (d : Draft) (slot : Slot) (value : String) : Except UsageError Draft :=
  match slot with
  | .file =>
    if value = "" then .error (.missingValue .file) else .ok { d with file := some value }
  | .source =>
    if d.source.isSome then .error (.repeated slot.shown)
    else if value = "" then .error (.missingValue .source)
    else .ok { d with source := some value }
  | .widen =>
    match parseRule value with
    | .ok rule => .ok { d with rules := d.rules ++ [rule] }
    | .error cause => .error (.invalidRule value cause)
  | .format =>
    if d.format.isSome then .error (.repeated slot.shown)
    else if value = "" then .error (.missingValue .format)
    else if value = "human" then .ok { d with format := some .human }
    else if value = "json" then .ok { d with format := some .json }
    else .error (.invalidFormat value)

/-- Stores what waits. -/
def settle (d : Draft) : Except Stop Draft :=
  match d.pending with
  | none => .ok d
  | some (slot, none) => .error (.usage (.missingValue slot))
  | some (slot, some value) => ({ d with pending := none }.store slot value).mapError .usage

def hasFile (d : Draft) : Bool :=
  d.file.isSome || (d.pending.map Prod.fst) = some .file

def takeFile (d : Draft) (file : String) : Except Stop Draft :=
  if d.hasFile then .error (.usage (.unexpectedArgument file))
  else do
    let d ← d.settle
    return { d with pending := some (.file, some file) }

/-- Takes a word: the value of the option that waits for one, or a file. -/
def takeWord (d : Draft) (word : String) : Except Stop Draft :=
  match d.pending with
  | some (slot, none) => .ok { d with pending := some (slot, some word) }
  | _ => d.takeFile word

/-- The option of `check` that may have been meant by a name. -/
def similarOption? (name : String) : Option String :=
  (["source", "widen", "format", "verbose", "help"].find? (alike name)).map ("--" ++ ·)

def takeLong (d : Draft) (name : String) (attached : Option String) : Except Stop Draft :=
  match Slot.ofLong? name, Flag.ofLong? .check name, attached with
  | some slot, _, none => do
    let d ← d.settle
    return { d with pending := some (slot, none) }
  | some slot, _, some value => do
    let d ← d.settle
    (d.store slot value).mapError .usage
  | none, some flag, none => do
    let d ← d.settle
    return { d with verbose := ← flag.raise .check d.verbose }
  | none, some _, some value => .error (.usage (.unexpectedValue value ("--" ++ name)))
  | none, none, _ => .error (.usage (.unknownOption ("--" ++ name) (similarOption? name)))

def takeLetter (d : Draft) (letter : Char) : Except Stop Draft :=
  match Flag.ofShort? .check letter with
  | some flag => do
    let d ← d.settle
    return { d with verbose := ← flag.raise .check d.verbose }
  | none => .error (.usage (.unknownOption (String.ofList ['-', letter]) none))

def take (d : Draft) (argument : String) : Except Stop Draft :=
  if d.onlyFiles then d.takeFile argument
  else
    match Argument.ofString argument with
    | .word word => d.takeWord word
    | .separator => .ok { d with onlyFiles := true }
    | .long name attached => d.takeLong name attached
    | .short letters => letters.foldlM takeLetter d

def finish (d : Draft) : Except Stop CheckArguments := do
  let d ← d.settle
  match d.file with
  | some file => return ⟨file, d.source, d.rules, d.format.getD .human⟩
  | none => .error (.usage .fileRequired)

end Draft

def parseCheck (arguments : List String) : Except Stop CheckArguments := do
  (← arguments.foldlM Draft.take .empty).finish

/-! ## The arguments of the command -/

/-- Reads the arguments of `help`, which name what it is about. -/
def parseHelp : Topic → List String → Stop
  | topic, [] => .help topic
  | .command, "check" :: rest => parseHelp .check rest
  | .command, "help" :: rest => parseHelp .help rest
  | _, word :: _ => .usage (.unknownCommand word)

/-- Reads the arguments of the command, given whether `verbose` has been raised. -/
def parseCommand (verbose : Bool) : List String → Except Stop CheckArguments
  | [] => .error (.usage (if verbose then .commandRequired else .nothingGiven))
  | argument :: rest =>
    match Argument.ofString argument with
    | .word "check" => parseCheck rest
    | .word "help" => .error (parseHelp .command rest)
    | .word word => .error (.usage (.unknownCommand word))
    | .separator =>
      match rest with
      | [] => .error (.usage (if verbose then .commandRequired else .nothingGiven))
      | word :: _ =>
        if word = "check" ∨ word = "help" then .error (.usage (.unexpectedArgument word))
        else .error (.usage (.unknownCommand word))
    | .long name attached =>
      match Flag.ofLong? .command name, attached with
      | some flag, none => do parseCommand (← flag.raise .command verbose) rest
      | some _, some value => .error (.usage (.unexpectedValue value ("--" ++ name)))
      | none, _ => .error (.usage (.unexpectedArgument ("--" ++ name)))
    | .short letters => do
      parseCommand (← letters.foldlM (raiseLetter .command) verbose) rest

def parse (arguments : List String) : Except Stop CheckArguments :=
  parseCommand false arguments

end Conform.Terminal
