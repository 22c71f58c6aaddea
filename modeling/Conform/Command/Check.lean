import Conform.Check
import Conform.Command.FileError
import Conform.Report
import Conform.Tree.Decode

/-!
# Checking a file

`check` reads the tree, then the source text if one is named, checks the module and shows what was
found. The status is 0 if nothing was found and 1 if something was or a file could not be used.

What the command does not do itself is given to it (`Surroundings`), and so is the way a file is
read; a run depends on nothing else. Someone else understands the arguments, says why a text is no
tree, and draws a finding in the source that it is about. A drawing may break off; then nothing more
is written and the status is 101. A log that the command may keep is no part of what it leaves.
-/

namespace Conform.Command

/-- How findings are shown. -/
inductive Format where
  | human
  | json
deriving DecidableEq

/-- The arguments of `check`. -/
structure CheckArguments where
  file : String
  source : Option String
  rules : List (Scalar × Scalar)
  format : Format
deriving DecidableEq

/-- What a run leaves: its status and the lines written to each stream. -/
structure Result where
  status : UInt8
  out : List String
  err : List String
deriving DecidableEq

/-- The text of lines, each ended. -/
def ended (lines : List String) : String :=
  String.join (lines.map (· ++ "\n"))

/-- A source text and the name it was read by. -/
structure Source where
  name : String
  text : String

/-- What is shown of findings, and whether it is all that there was to show. -/
structure Drawing where
  lines : List String
  isComplete : Bool

/-- What a run relies on and does not do itself. -/
structure Surroundings where
  /-- What the arguments ask for: a check, or else what is left without one. -/
  interpret : List String → Except Result CheckArguments
  /-- What is said of a text that holds no tree. -/
  complaint : String → String
  /-- How a finding is shown in a source. -/
  draw : Source → Diagnostic → Drawing

/-! ## Showing findings -/

/-- Findings one after another, up to one at which the drawing breaks off. -/
def drawAll (draw : Diagnostic → Drawing) : List Diagnostic → Drawing
  | [] => ⟨[], true⟩
  | d :: rest =>
    let first := draw d
    if first.isComplete then
      let others := drawAll draw rest
      ⟨first.lines ++ others.lines, others.isComplete⟩
    else first

def briefLine (d : Diagnostic) : String :=
  "type error: " ++ d.message

/-- What is shown of findings one by one, given how a finding is drawn in a source: nothing in a
report, which shows them all at once. -/
def shown (draw : Source → Diagnostic → Drawing) (format : Format) (source? : Option Source)
    (ds : List Diagnostic) : Drawing :=
  match format, source? with
  | .json, _ => ⟨[], true⟩
  | .human, none => ⟨ds.map briefLine, true⟩
  | .human, some source => drawAll (draw source) ds

/-- What is written to the standard output: the report, or how much was checked if all is well. -/
def outLines (format : Format) (m : Module) (o : Outcome) : List String :=
  match format with
  | .json => [report o.diagnostics]
  | .human =>
    if o.isClean then
      ["OK: " ++ Nat.repr m.functions.length ++ " functions, " ++ Nat.repr m.records.length ++
        " records"]
    else []

/-- What is left of a checked module. -/
def present (draw : Source → Diagnostic → Drawing) (format : Format) (source? : Option Source)
    (m : Module) (o : Outcome) : Result :=
  let out := outLines format m o
  let findings := shown draw format source? o.diagnostics
  if o.isClean then ⟨0, out, []⟩
  else if findings.isComplete then
    ⟨1, out, findings.lines ++
      ["error: " ++ Nat.repr o.diagnostics.length ++ " type error(s) found"]⟩
  else ⟨101, out, findings.lines⟩

/-! ## The run -/

/-- What is left when a file cannot be used. -/
def failure (message : String) : Result :=
  ⟨1, [], ["error: " ++ message]⟩

/-- What is said of a file that cannot be read. -/
def unreadable (file : String) (cause : FileError) : String :=
  "cannot read " ++ file ++ ": " ++ cause.message

/-- What is said of a file that holds no tree, given what is said of its text. -/
def noTree (file complaint : String) : String :=
  file ++ ": invalid syntax tree: " ++ complaint

section

variable {m : Type → Type} [Monad m] (read : String → m (Except FileError String))

def readSource : Option String → m (Except String (Option Source))
  | none => return .ok none
  | some file => do
    match ← read file with
    | .ok text => return .ok (some ⟨file, text⟩)
    | .error cause => return .error (unreadable file cause)

namespace Surroundings

variable (s : Surroundings)

/-- Checks a tree and shows what was found, in the source if one is named. -/
def checkTree (a : CheckArguments) (tree : Module) : m Result := do
  match ← readSource read a.source with
  | .error message => return failure message
  | .ok source? =>
    return present s.draw a.format source? tree (check (Widening.ofList a.rules) tree)

/-- Runs `check`, given how a file is read: its text, or why there is none. -/
def runCheck (a : CheckArguments) : m Result := do
  match ← read a.file with
  | .error cause => return failure (unreadable a.file cause)
  | .ok text =>
    match Module.read? text with
    | none => return failure (noTree a.file (s.complaint text))
    | some tree => s.checkTree read a tree

/-- Runs the command. -/
def run (arguments : List String) : m Result :=
  match s.interpret arguments with
  | .ok a => s.runCheck read a
  | .error left => return left

end Surroundings

end

end Conform.Command
