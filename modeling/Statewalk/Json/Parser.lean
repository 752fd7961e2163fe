import Statewalk.Text.Digits
import Statewalk.Json.Basic

/-! # Reading JSON text

`Json.parse` accepts one value between blanks, by the strict grammar: no comments, no trailing
commas, no leading zeros, a digit on both sides of a point, no raw control characters in strings
and only the known escapes.  A surrogate escape without its partner is allowed by the grammar and
gives a literal that denotes no text.
-/

namespace Statewalk

open Statewalk.Text (digitsValue spanDigits digitValue)

namespace Json

/-- Drops the blanks that may stand between tokens. -/
def skipBlanks (cs : List Char) : List Char :=
  cs.dropWhile fun c => c = ' ' || c = '\n' || c = '\t' || c = '\r'

/-! ## Numbers -/

/-- The digits after a point, if there is one. -/
def fraction? : List Char → Option (List Nat × List Char)
  | [] => some ([], [])
  | c :: cs =>
    if c = '.' then
      match spanDigits cs with
      | ([], _) => none
      | (ds, rest) => some (ds.map digitValue, rest)
    else some ([], c :: cs)

/-- A run of digits as the size of an exponent. -/
def exponentSize? (cs : List Char) : Option (Nat × List Char) :=
  match spanDigits cs with
  | ([], _) => none
  | (ds, rest) => some (digitsValue ds, rest)

/-- The signed size after an exponent mark. -/
def exponentBody? : List Char → Option (Int × List Char)
  | [] => none
  | c :: cs =>
    if c = '-' then (exponentSize? cs).map fun (e, rest) => (-(e : Int), rest)
    else (exponentSize? (if c = '+' then cs else c :: cs)).map fun (e, rest) => ((e : Int), rest)

/-- The exponent, if there is one. -/
def exponent? : List Char → Option (Option Int × List Char)
  | [] => some (none, [])
  | c :: cs =>
    if c = 'e' || c = 'E' then (exponentBody? cs).map fun (e, rest) => (some e, rest)
    else some (none, c :: cs)

/-- The whole part: a zero on its own, or digits that do not start with zero. -/
def whole? (cs : List Char) : Option (Nat × List Char) :=
  match spanDigits cs with
  | ([], _) => none
  | (d :: ds, rest) =>
    if d = '0' && !ds.isEmpty then none else some (digitsValue (d :: ds), rest)

/-- A literal after its sign. -/
def unsigned? (negative : Bool) (cs : List Char) : Option (Number × List Char) := do
  let (whole, cs) ← whole? cs
  let (fraction, cs) ← fraction? cs
  let (exponent, cs) ← exponent? cs
  return ({ negative, whole, fraction, exponent }, cs)

/-- A number literal. -/
def number? : List Char → Option (Number × List Char)
  | [] => none
  | c :: cs => if c = '-' then unsigned? true cs else unsigned? false (c :: cs)

/-! ## Strings -/

/-- One piece of a string literal: a character, or the 16-bit code of a `\u` escape. -/
inductive Piece where
  | char (c : Char)
  | code (n : Nat)
deriving DecidableEq, Repr

/-- The number that a hexadecimal digit stands for. -/
def hexValue? (c : Char) : Option Nat :=
  if '0' ≤ c && c ≤ '9' then some (c.toNat - '0'.toNat)
  else if 'a' ≤ c && c ≤ 'f' then some (c.toNat - 'a'.toNat + 10)
  else if 'A' ≤ c && c ≤ 'F' then some (c.toNat - 'A'.toNat + 10)
  else none

/-- The number of four hexadecimal digits. -/
def hexCode? (a b c d : Char) : Option Nat := do
  let a ← hexValue? a
  let b ← hexValue? b
  let c ← hexValue? c
  let d ← hexValue? d
  return ((a * 16 + b) * 16 + c) * 16 + d

/-- The character of a one-letter escape. -/
def shortEscape? (c : Char) : Option Char :=
  match c with
  | '"' => some '"'
  | '\\' => some '\\'
  | '/' => some '/'
  | 'b' => some '\x08'
  | 'f' => some '\x0c'
  | 'n' => some '\n'
  | 'r' => some '\r'
  | 't' => some '\t'
  | _ => none

/-- The pieces of a string literal after its opening quote, up to the closing one. -/
def pieces? : List Char → Option (List Piece × List Char)
  | [] => none
  | c :: cs =>
    if c = '"' then some ([], cs)
    else if c = '\\' then
      match cs with
      | [] => none
      | e :: cs =>
        if e = 'u' then
          match cs with
          | a :: b :: c :: d :: cs => do
            let n ← hexCode? a b c d
            let (ps, rest) ← pieces? cs
            return (.code n :: ps, rest)
          | _ => none
        else do
          let e ← shortEscape? e
          let (ps, rest) ← pieces? cs
          return (.char e :: ps, rest)
    else if c.toNat < 0x20 then none
    else do
      let (ps, rest) ← pieces? cs
      return (.char c :: ps, rest)

/-- The code is the first half of a surrogate pair. -/
def isHighSurrogate (n : Nat) : Bool :=
  0xD800 ≤ n && n < 0xDC00

/-- The code is the second half of a surrogate pair. -/
def isLowSurrogate (n : Nat) : Bool :=
  0xDC00 ≤ n && n < 0xE000

/-- Joins pieces to a text; fails on a surrogate without its partner. -/
def join? : List Piece → Option (List Char)
  | [] => some []
  | .char c :: ps => (join? ps).map (c :: ·)
  | .code hi :: .code lo :: ps =>
    if isHighSurrogate hi && isLowSurrogate lo then
      (join? ps).map (Char.ofNat (0x10000 + (hi - 0xD800) * 0x400 + (lo - 0xDC00)) :: ·)
    else if isHighSurrogate hi || isLowSurrogate hi then none
    else (join? (.code lo :: ps)).map (Char.ofNat hi :: ·)
  | .code n :: ps =>
    if isHighSurrogate n || isLowSurrogate n then none
    else (join? ps).map (Char.ofNat n :: ·)

/-- A string literal after its opening quote. -/
def literal? (cs : List Char) : Option (Literal × List Char) :=
  (pieces? cs).map fun (ps, rest) => ((join? ps).map String.ofList, rest)

/-! ## Values -/

/-- What follows a given word. -/
def after? : List Char → List Char → Option (List Char)
  | [], cs => some cs
  | w :: ws, c :: cs => if w = c then after? ws cs else none
  | _ :: _, [] => none

/-- The value that a word stands for, after the first letter of the word. -/
def word? (rest : List Char) (j : Json) (cs : List Char) : Option (Json × List Char) :=
  (after? rest cs).map fun cs => (j, cs)

/-- The quoted key of a member and the colon after it. -/
def key? (cs : List Char) : Option (Literal × List Char) := do
  let cs ← after? ['"'] (skipBlanks cs)
  let (key, cs) ← literal? cs
  let cs ← after? [':'] (skipBlanks cs)
  return (key, cs)

mutual

/-- A value and what follows it.  The first argument bounds the nesting and the number of items;
    three times the length of the text is always enough. -/
def value? : Nat → List Char → Option (Json × List Char)
  | 0, _ => none
  | n + 1, cs =>
    match skipBlanks cs with
    | [] => none
    | c :: cs =>
      if c = '"' then (literal? cs).map fun (s, cs) => (.str s, cs)
      else if c = '[' then items? n cs
      else if c = '\x7b' then members? n cs
      else if c = 'n' then word? ['u', 'l', 'l'] .null cs
      else if c = 't' then word? ['r', 'u', 'e'] (.bool true) cs
      else if c = 'f' then word? ['a', 'l', 's', 'e'] (.bool false) cs
      else (number? (c :: cs)).map fun (x, cs) => (.num x, cs)

/-- A list after its opening bracket. -/
def items? : Nat → List Char → Option (Json × List Char)
  | 0, _ => none
  | n + 1, cs =>
    match after? [']'] (skipBlanks cs) with
    | some cs => some (.arr [], cs)
    | none => (itemRun? n cs).map fun (js, cs) => (.arr js, cs)

/-- One or more items up to the closing bracket. -/
def itemRun? : Nat → List Char → Option (List Json × List Char)
  | 0, _ => none
  | n + 1, cs => do
    let (j, cs) ← value? n cs
    match skipBlanks cs with
    | [] => none
    | c :: cs =>
      if c = ',' then
        let (js, cs) ← itemRun? n cs
        return (j :: js, cs)
      else if c = ']' then return ([j], cs)
      else none

/-- An object after its opening brace. -/
def members? : Nat → List Char → Option (Json × List Char)
  | 0, _ => none
  | n + 1, cs =>
    match after? ['\x7d'] (skipBlanks cs) with
    | some cs => some (.obj [], cs)
    | none => (memberRun? n cs).map fun (ms, cs) => (.obj ms, cs)

/-- One or more members up to the closing brace. -/
def memberRun? : Nat → List Char → Option (List (Literal × Json) × List Char)
  | 0, _ => none
  | n + 1, cs => do
    let (k, cs) ← key? cs
    let (j, cs) ← value? n cs
    match skipBlanks cs with
    | [] => none
    | c :: cs =>
      if c = ',' then
        let (ms, cs) ← memberRun? n cs
        return ((k, j) :: ms, cs)
      else if c = '\x7d' then return ([(k, j)], cs)
      else none

end

/-- Reads a text that holds one value and nothing else but blanks. -/
def parse (s : String) : Option Json :=
  let cs := s.toList
  match value? (3 * cs.length + 3) cs with
  | some (j, rest) => if (skipBlanks rest).isEmpty then some j else none
  | none => none

end Json

end Statewalk
