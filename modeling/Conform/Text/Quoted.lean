import Conform.Text.Unprintable

/-!
# Quoted text

How a key is shown inside a message: between double quotes, with the quote, the backslash and the
four usual controls behind a backslash, and every other unprintable character by its code point in
lower-case hexadecimal between braces. All else stands for itself, the single quote included.
-/

namespace Conform.Text

def escaped (c : Char) : List Char :=
  if c = '"' then ['\\', '"']
  else if c = '\\' then ['\\', '\\']
  else if c = '\x00' then ['\\', '0']
  else if c = '\t' then ['\\', 't']
  else if c = '\r' then ['\\', 'r']
  else if c = '\n' then ['\\', 'n']
  else if isUnprintable c then
    ['\\', 'u', '\x7b'] ++ Nat.toDigits 16 c.toNat ++ ['\x7d']
  else [c]

def quoted (text : String) : String :=
  String.ofList ('"' :: text.toList.flatMap escaped ++ ['"'])

end Conform.Text
