import Conform.Command.Check
import Conform.Terminal.Excerpt

/-!
# Findings drawn in a source

A finding is drawn with its code, its message, the places that its excerpts start at, the texts of
its labels and its help. The lines of the source that an excerpt shows are left out.
-/

namespace Conform.Terminal

open Command (Drawing Source)

/-- A text whose lines after the first are indented as deep as the first. -/
def hanging (text : String) : String :=
  "  " ++ "\n  ".intercalate (text.splitOn "\n")

/-- A finding with the places that it shows in the source. The name of the source stands as it is
where an excerpt starts; the drawing breaks off at an excerpt that has no position. -/
def drawn (source : Source) (d : Diagnostic) : Drawing :=
  let positions := excerptPositions (steps source.text) (d.labels.map Prod.snd)
  let upTo := d.code :: hanging d.message ::
    ((positions.takeWhile Option.isSome).filterMap id).map fun p =>
      "  [" ++ source.name ++ ":" ++ Nat.repr p.line ++ ":" ++ Nat.repr p.column ++ "]"
  if positions.all Option.isSome then
    ⟨upTo ++ (d.labels.filterMap Prod.fst).map hanging ++
      (d.help?.map fun help => hanging ("help: " ++ help)).toList, true⟩
  else ⟨upTo, false⟩

end Conform.Terminal
