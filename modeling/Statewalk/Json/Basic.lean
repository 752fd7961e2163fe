/-! # JSON values

A value keeps what its text says: numbers as literals (so that an integer and a fraction are told
apart), members in their order and with their repetitions, and string literals that hold an
unpaired surrogate escape and so denote no text.
-/

namespace Statewalk

/-- A number literal: sign, whole part, digits after the point, exponent. -/
structure Number where
  negative : Bool
  whole : Nat
  /-- Digits after the point; empty when the literal has no point. -/
  fraction : List Nat
  /-- `none` when the literal has no exponent. -/
  exponent : Option Int
deriving DecidableEq, Repr

namespace Number

/-- The literal of a natural number. -/
def ofNat (n : Nat) : Number :=
  { negative := false, whole := n, fraction := [], exponent := none }

/-- The natural number of a literal with neither sign, point nor exponent. -/
def toNat? (n : Number) : Option Nat :=
  if n.negative || !n.fraction.isEmpty || n.exponent.isSome then none else some n.whole

@[simp] theorem toNat?_ofNat (n : Nat) : (ofNat n).toNat? = some n := rfl

end Number

/-- What a string literal denotes: a text, or nothing if one of its surrogate escapes has no
    partner. -/
abbrev Literal := Option String

/-- A JSON value as written. -/
inductive Json where
  | null
  | bool (b : Bool)
  | num (n : Number)
  | str (s : Literal)
  | arr (items : List Json)
  | obj (members : List (Literal × Json))
deriving Repr

namespace Json

/-- The value of a text. -/
def text (s : String) : Json :=
  .str (some s)

/-- The value of a natural number. -/
def nat (n : Nat) : Json :=
  .num (.ofNat n)

/-- An object with the given members in order. -/
def object (members : List (String × Json)) : Json :=
  .obj (members.map fun m => (some m.1, m.2))

/-- An optional value, `null` when absent. -/
def nullable {α : Type} (f : α → Json) : Option α → Json
  | none => .null
  | some a => f a

/-- A list of values. -/
def list {α : Type} (f : α → Json) (as : List α) : Json :=
  .arr (as.map f)

/-! ## Reading plain values -/

/-- Reads a Boolean. -/
def bool? : Json → Option Bool
  | .bool b => some b
  | _ => none

/-- Reads a text. -/
def text? : Json → Option String
  | .str s => s
  | _ => none

/-- Reads an integer literal below `bound`. -/
def natBelow? (bound : Nat) : Json → Option Nat
  | .num n => n.toNat?.filter (· < bound)
  | _ => none

/-- Reads an unsigned integer of 64 bits. -/
def word64? : Json → Option Nat :=
  natBelow? (Nat.pow 2 64)

/-- Reads an unsigned integer of 32 bits. -/
def word32? : Json → Option Nat :=
  natBelow? (Nat.pow 2 32)

/-- Reads a value or `null`. -/
def nullable? {α : Type} (read : Json → Option α) : Json → Option (Option α)
  | .null => some none
  | j => (read j).map some

/-- Reads a list of values. -/
def list? {α : Type} (read : Json → Option α) : Json → Option (List α)
  | .arr items => items.mapM read
  | _ => none

/-- Reads one of a fixed set of names: the name as a string, or an object with that one key and
    the value `null`. -/
def choice? {α : Type} (names : List (String × α)) : Json → Option α
  | .str (some s) => names.lookup s
  | .obj [(some s, .null)] => names.lookup s
  | _ => none

end Json

end Statewalk
