import Conform.Terminal.Plain

/-!
# Text with marked words

Some words of a message stand out on a terminal. The marks around a word also end a control
sequence that the word or the text before it leaves open, so the plain form of the message is made
of the plain forms of its parts.
-/

namespace Conform.Terminal

/-- A message: its marked words, each after the text that leads to it, and the text after the last
of them. -/
structure Marked where
  words : List (String × String)
  rest : String
deriving DecidableEq

namespace Marked

def ofText (text : String) : Marked := ⟨[], text⟩

/-- Adds a marked word and the text after it. -/
def mark (m : Marked) (word rest : String) : Marked :=
  ⟨m.words ++ [(m.rest, word)], rest⟩

def add (m : Marked) (text : String) : Marked :=
  { m with rest := m.rest ++ text }

/-- The message without marks and control sequences. -/
def plain (m : Marked) : String :=
  String.join (m.words.map fun (lead, word) => Terminal.plain lead ++ Terminal.plain word) ++
    Terminal.plain m.rest

end Marked

end Conform.Terminal
