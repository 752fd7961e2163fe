import Statewalk.Text.Blank
import Statewalk.Text.Digits
import Statewalk.Json.Basic
import Statewalk.Fault

/-! # Memory sizes

Byte counts, given as a plain number or as a number with one of the units `k`, `M` and `G`
(multiples of 1024) in either case.
-/

namespace Statewalk

open Statewalk.Text (trim readDigits?)

/-- A number of bytes. -/
structure MemorySize where
  bytes : Nat
deriving DecidableEq, Repr

namespace MemorySize

/-- Bytes in a kibibyte. -/
def kibi : Nat := Nat.pow 2 10

/-- Bytes in a mebibyte. -/
def mebi : Nat := Nat.pow 2 20

/-- Bytes in a gibibyte. -/
def gibi : Nat := Nat.pow 2 30

/-- A number of kibibytes. -/
def ofKib (n : Nat) : Except Fault MemorySize :=
  (mulWords n kibi).map MemorySize.mk

/-- A number of mebibytes. -/
def ofMib (n : Nat) : Except Fault MemorySize :=
  (mulWords n mebi).map MemorySize.mk

/-- The text of a size: its bytes. -/
def text (m : MemorySize) : String :=
  String.ofList (Text.digits m.bytes)

/-- The factor of a unit letter. -/
def unitFactor? (c : Char) : Option Nat :=
  if c = 'k' || c = 'K' then some kibi
  else if c = 'm' || c = 'M' then some mebi
  else if c = 'g' || c = 'G' then some gibi
  else none

/-- Splits off the unit letter at the end: the text before it and the unit's factor. -/
def splitUnit (cs : List Char) : List Char × Nat :=
  match cs.getLast?.bind unitFactor? with
  | some factor => (cs.dropLast, factor)
  | none => (cs, 1)

/-- Reads a number with an optional plus sign. -/
def readCount? : List Char → Option Nat
  | '+' :: cs => readDigits? cs
  | cs => readDigits? cs

/-- Reads a size with an optional unit, white space allowed around the number. -/
def parse? (s : String) : Option MemorySize := do
  let (count, factor) := splitUnit (trim s.toList)
  let n ← readCount? (trim count)
  if n < wordLimit && n * factor < wordLimit then some { bytes := n * factor } else none

/-- The value of a size: its bytes. -/
def toJson (m : MemorySize) : Json :=
  .nat m.bytes

/-- Reads a size given as a number of bytes or as a text with a unit. -/
def ofJson? : Json → Option MemorySize
  | .str (some s) => parse? s
  | j => j.word64?.map MemorySize.mk

end MemorySize

end Statewalk
