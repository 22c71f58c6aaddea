import Conform.Span

/-!
# Lines, columns and excerpts

A line of a text ends with a line feed, with a carriage return or with both in this order. Lines and
columns are counted from one; columns count bytes. A byte offset inside a pair of line end
characters stands before the line end.

An excerpt shows a span with two lines before and after it. Excerpts of spans that are near one
another are shown as one.
-/

namespace Conform.Terminal

/-- A byte of a text, or a carriage return and a line feed together. -/
structure Step where
  /-- The offset of its last byte. -/
  place : Nat
  endsLine : Bool

/-- Adds the steps through bytes that start at `place` to those before them, the last of them first,
and gives all in order. -/
def stepsAfter (before : List Step) (place : Nat) : List UInt8 → List Step
  | 13 :: 10 :: rest => stepsAfter (⟨place + 1, true⟩ :: before) (place + 2) rest
  | byte :: rest => stepsAfter (⟨place, byte = 13 || byte = 10⟩ :: before) (place + 1) rest
  | [] => before.reverse

def steps (text : String) : List Step :=
  stepsAfter [] 0 text.toUTF8.toList

def lineEnds (steps : List Step) : Nat :=
  steps.countP Step.endsLine

/-- A place in a text as people name it. -/
structure Position where
  line : Nat
  column : Nat
deriving DecidableEq

def positionOf (steps : List Step) (offset : Nat) : Position :=
  let before := steps.takeWhile (·.place < offset)
  ⟨lineEnds before + 1, (before.reverse.takeWhile (! ·.endsLine)).length + 1⟩

/-- A stretch of bytes to be shown. -/
structure Excerpt where
  start : Nat
  stop : Nat

namespace Excerpt

def ofSpan (span : Span) : Excerpt :=
  ⟨span.start.toNat, span.start.toNat + span.length.toNat⟩

/-- How many lines stand before the first line shown. -/
def linesBefore (steps : List Step) (e : Excerpt) : Nat :=
  (positionOf steps e.start).line - 3

/-- How many lines have ended where the excerpt does: with the last of its bytes, and with the line
that follows them and two more. -/
def linesThrough (steps : List Step) (e : Excerpt) : Nat :=
  let after := steps.dropWhile (·.place < e.stop - 1)
  lineEnds (steps.takeWhile (·.place < e.stop - 1)) + lineEnds (after.take 1) +
    min 3 (lineEnds (after.drop 1))

/-- Adds an excerpt to those before it, the last of them first: as a part of the last one if it
starts no later than that one ends. -/
def join (steps : List Step) : List Excerpt → Excerpt → List Excerpt
  | [], e => [e]
  | last :: rest, e =>
    if e.linesBefore steps ≤ last.linesBefore steps + last.linesThrough steps then
      ⟨last.start, max last.stop e.stop⟩ :: rest
    else e :: last :: rest

end Excerpt

/-- Where the excerpts for spans of a text start. A span that leaves the text by more than a byte
leaves nothing to be shown, and an excerpt that starts outside of the text has no position. -/
def excerptPositions (steps : List Step) (spans : List Span) : List (Option Position) :=
  let size := steps.getLast?.elim 0 (·.place + 1)
  let excerpts := (spans.map Excerpt.ofSpan).mergeSort fun e f => e.start ≤ f.start
  if excerpts.all (·.stop ≤ size + 1) then
    (excerpts.foldl (Excerpt.join steps) []).reverse.map fun e =>
      if e.start ≤ size then some (positionOf steps e.start) else none
  else []

end Conform.Terminal
