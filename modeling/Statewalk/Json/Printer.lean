import Statewalk.Text.Digits
import Statewalk.Json.Basic

/-! # JSON text

Two layouts of a value: `Json.compact` without any blank, and `Json.pretty` with an indent of two
blanks for each level.  In strings the quote, the backslash and the characters below U+0020 are
escaped; everything else is written as it is.
-/

namespace Statewalk

open Statewalk.Text (digits)

namespace Number

/-- The digit written for a number below ten. -/
def digitChar (d : Nat) : Char :=
  Char.ofNat ('0'.toNat + d)

/-- An exponent with its sign and at least two digits. -/
def renderExponent : Int → List Char
  | .ofNat e => 'e' :: '+' :: padded e
  | .negSucc e => 'e' :: '-' :: padded (e + 1)
where
  padded (e : Nat) : List Char :=
    if e < 10 then '0' :: digits e else digits e

/-- The sign, digits, point and exponent of a literal. -/
def render (n : Number) : List Char :=
  (if n.negative then ['-'] else []) ++ digits n.whole ++
    (if n.fraction.isEmpty then [] else '.' :: n.fraction.map digitChar) ++
    match n.exponent with
    | none => []
    | some e => renderExponent e

end Number

namespace Json

/-- The lowercase hexadecimal digit of a number below sixteen. -/
def hexDigit (n : Nat) : Char :=
  if n < 10 then Char.ofNat ('0'.toNat + n) else Char.ofNat ('a'.toNat + (n - 10))

/-- The spelling of one character inside a string literal. -/
def escape (c : Char) : List Char :=
  if c = '"' then ['\\', '"']
  else if c = '\\' then ['\\', '\\']
  else if c.toNat = 0x08 then ['\\', 'b']
  else if c.toNat = 0x09 then ['\\', 't']
  else if c.toNat = 0x0A then ['\\', 'n']
  else if c.toNat = 0x0C then ['\\', 'f']
  else if c.toNat = 0x0D then ['\\', 'r']
  else if c.toNat < 0x20 then
    ['\\', 'u', '0', '0', hexDigit (c.toNat / 16), hexDigit (c.toNat % 16)]
  else [c]

/-- A string literal; one that denotes no text is written as an unpaired surrogate. -/
def quote : Literal → List Char
  | some s => '"' :: s.toList.flatMap escape ++ ['"']
  | none => ['"', '\\', 'u', 'd', '8', '0', '0', '"']

/-! ## Compact layout -/

mutual

/-- The text of a value without blanks. -/
def render : Json → List Char
  | .null => ['n', 'u', 'l', 'l']
  | .bool true => ['t', 'r', 'u', 'e']
  | .bool false => ['f', 'a', 'l', 's', 'e']
  | .num n => n.render
  | .str s => quote s
  | .arr items => '[' :: renderItems items ++ [']']
  | .obj members => '\x7b' :: renderMembers members ++ ['\x7d']

/-- The items of a list, parted by commas. -/
def renderItems : List Json → List Char
  | [] => []
  | [j] => render j
  | j :: js => render j ++ ',' :: renderItems js

/-- The members of an object, parted by commas. -/
def renderMembers : List (Literal × Json) → List Char
  | [] => []
  | [(k, j)] => quote k ++ ':' :: render j
  | (k, j) :: ms => quote k ++ ':' :: render j ++ ',' :: renderMembers ms

end

/-- The text of a value without blanks. -/
def compact (j : Json) : String :=
  String.ofList j.render

/-! ## Indented layout -/

/-- The start of a line at a level of nesting. -/
def newline (level : Nat) : List Char :=
  '\n' :: List.replicate (2 * level) ' '

mutual

/-- The text of a value with one item or member a line, at the given level of nesting. -/
def layout (level : Nat) : Json → List Char
  | .null => ['n', 'u', 'l', 'l']
  | .bool true => ['t', 'r', 'u', 'e']
  | .bool false => ['f', 'a', 'l', 's', 'e']
  | .num n => n.render
  | .str s => quote s
  | .arr [] => ['[', ']']
  | .arr (j :: js) => '[' :: layoutItems (level + 1) (j :: js) ++ newline level ++ [']']
  | .obj [] => ['\x7b', '\x7d']
  | .obj (m :: ms) =>
    '\x7b' :: layoutMembers (level + 1) (m :: ms) ++ newline level ++ ['\x7d']

/-- Items on lines of their own, parted by commas. -/
def layoutItems (level : Nat) : List Json → List Char
  | [] => []
  | [j] => newline level ++ layout level j
  | j :: js => newline level ++ layout level j ++ ',' :: layoutItems level js

/-- Members on lines of their own, parted by commas. -/
def layoutMembers (level : Nat) : List (Literal × Json) → List Char
  | [] => []
  | [(k, j)] => newline level ++ quote k ++ ':' :: ' ' :: layout level j
  | (k, j) :: ms =>
    newline level ++ quote k ++ ':' :: ' ' :: layout level j ++ ',' :: layoutMembers level ms

end

/-- The text of a value, indented by two blanks for each level. -/
def pretty (j : Json) : String :=
  String.ofList (j.layout 0)

end Json

end Statewalk
