import Statewalk.Text.Extending
import Statewalk.Text.Unseen

/-! # Quoted texts

A text between quotes as it is shown in descriptions, so that every character can be told from its
neighbours: quotes, backslashes and the common controls have short escapes, and characters that
leave no ink or are drawn on the one before them are given by their code point.
-/

namespace Statewalk.Text

/-- The code point of a character in hexadecimal digits. -/
def escapeCode (c : Char) : List Char :=
  ['\\', 'u', '\x7b'] ++ Nat.toDigits 16 c.toNat ++ ['\x7d']

/-- A character as it is shown. -/
def showChar (c : Char) : List Char :=
  if c = '"' then ['\\', '"']
  else if c = '\\' then ['\\', '\\']
  else if c = '\n' then ['\\', 'n']
  else if c = '\r' then ['\\', 'r']
  else if c = '\t' then ['\\', 't']
  else if c.toNat = 0 then ['\\', '0']
  else if isExtending c || isUnseen c then escapeCode c
  else [c]

/-- A text between quotes. -/
def quoted (s : String) : String :=
  String.ofList ('"' :: s.toList.flatMap showChar ++ ['"'])

end Statewalk.Text
