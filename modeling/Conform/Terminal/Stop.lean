import Conform.Command.Check
import Conform.Command.Rule
import Conform.Terminal.Marked

/-!
# When there is nothing to check

The arguments of the command may ask for help or for the version, or make no sense. What is said
about arguments that make no sense repeats words from them, so it is shown as plain text; the status
is then 2.
-/

namespace Conform.Terminal

open Command (Result RuleError)

/-- What a value of `check` is for. -/
inductive Slot where
  | file
  | source
  | widen
  | format
deriving DecidableEq

def Slot.shown : Slot → String
  | file => "<FILE>"
  | source => "--source <SOURCE>"
  | widen => "--widen <FROM=TO>"
  | format => "--format <FORMAT>"

def Slot.ofLong? (name : String) : Option Slot :=
  match name with
  | "source" => some source
  | "widen" => some widen
  | "format" => some format
  | _ => none

/-- What is wrong with the arguments. -/
inductive UsageError where
  | nothingGiven
  | commandRequired
  | unknownCommand (word : String)
  | unexpectedArgument (argument : String)
  /-- An option that does not exist. It may have been meant as another one or, if none is like it,
  as a file. -/
  | unknownOption (option : String) (similar? : Option String)
  | missingValue (slot : Slot)
  | invalidFormat (value : String)
  | invalidRule (value : String) (cause : RuleError)
  | repeated (shown : String)
  | unexpectedValue (value flag : String)
  | fileRequired
deriving DecidableEq

/-- What is said about it, with the words from the arguments and the names of places marked; nothing
if the help says it all. -/
def UsageError.message? (e : UsageError) : Option Marked :=
  let text := Marked.ofText
  match e with
  | nothingGiven => none
  | commandRequired =>
    (text "'").mark "shapecheck" "' requires a subcommand but one was not provided"
  | unknownCommand word => (text "unrecognized subcommand '").mark word "'"
  | unexpectedArgument argument => (text "unexpected argument '").mark argument "' found"
  | unknownOption option (some similar) =>
    (((text "unexpected argument '").mark option "' found\n\n  ").mark "tip:"
      " a similar argument exists: '").mark similar "'"
  | unknownOption option none =>
    (((text "unexpected argument '").mark option "' found\n\n  ").mark "tip:" " to pass '").mark
      option "' as a value, use '" |>.mark ("-- " ++ option) "'"
  | missingValue slot =>
    (text "a value is required for '").mark slot.shown "' but none was supplied"
  | invalidFormat value =>
    ((text "invalid value '").mark value "' for '").mark Slot.format.shown "'"
  | invalidRule value cause =>
    ((text "invalid value '").mark value "' for '").mark Slot.widen.shown ("': " ++ cause.message)
  | repeated shown => (text "the argument '").mark shown "' cannot be used multiple times"
  | unexpectedValue value flag =>
    ((text "unexpected value '").mark value "' for '").mark flag
      "' found; no more were expected"
  | fileRequired =>
    (text "the following required arguments were not provided:\n  ").mark Slot.file.shown ""

/-- What help is about. -/
inductive Topic where
  | command
  | check
  | help
deriving DecidableEq

/-- Why there is nothing to check. -/
inductive Stop where
  | usage (error : UsageError)
  | help (topic : Topic)
  | version
deriving DecidableEq

/-! ## What is left -/

def versionLine : String := "shapecheck 0.1.0"

def Topic.lines : Topic → List String
  | .command => [
    "Structural type checker for record-shaped data",
    "",
    "Usage: shapecheck [OPTIONS] <COMMAND>",
    "",
    "Commands:",
    "  check  Type check a syntax tree",
    "  help   Print this message or the help of the given subcommand(s)",
    "",
    "Options:",
    "  -v, --verbose  Enable debug logging (RUST_LOG overrides)",
    "  -h, --help     Print help",
    "  -V, --version  Print version"]
  | .check => [
    "Type check a syntax tree",
    "",
    "Usage: shapecheck check [OPTIONS] <FILE>",
    "",
    "Arguments:",
    "  <FILE>  Syntax tree as JSON",
    "",
    "Options:",
    "      --source <SOURCE>  Source text the tree was parsed from, for labelled diagnostics",
    "  -v, --verbose          Enable debug logging (RUST_LOG overrides)",
    "      --widen <FROM=TO>  Allow a scalar widening, e.g. `bool=int` (repeatable)",
    "      --format <FORMAT>  Diagnostic output format [default: human] "
      ++ "[possible values: human, json]",
    "  -h, --help             Print help"]
  | .help => [
    "Print this message or the help of the given subcommand(s)",
    "",
    "Usage: shapecheck help [COMMAND]...",
    "",
    "Arguments:",
    "  [COMMAND]...  Print help for the subcommand(s)"]

def Stop.result : Stop → Result
  | .version => ⟨0, [versionLine], []⟩
  | .help topic => ⟨0, topic.lines, []⟩
  | .usage error =>
    match error.message? with
    | none => ⟨2, [], Topic.command.lines⟩
    | some message =>
      let whole := (message.add "\n\nFor more information, try '").mark "--help" "'."
      ⟨2, [], ["error: " ++ whole.plain]⟩

end Conform.Terminal
