import Statewalk.Text.Digits
import Statewalk.Json.Basic

/-! # Floating-point numbers as number literals

Writing takes the fewest digits that read back to the same double, and of those the nearest;
reading rounds the leading digits that fit into 64 bits to a double and scales it by a power of
ten in one operation, which may be off in the last place for long literals.
-/

namespace Statewalk

open Statewalk.Text (digits digitValue)

namespace Number

/-! ## Shortest digits -/

/-- A positive double as `mantissa * 2 ^ exponent`. -/
structure Binary where
  mantissa : Nat
  exponent : Int

/-- The parts of a finite double, its sign left out. -/
def Binary.ofBits (bits : UInt64) : Binary :=
  let fraction : Nat := bits.toNat % Nat.pow 2 52
  let biased : Nat := bits.toNat / Nat.pow 2 52 % Nat.pow 2 11
  if biased = 0 then { mantissa := fraction, exponent := -1074 }
  else { mantissa := Nat.pow 2 52 + fraction, exponent := (biased : Int) - 1075 }

/-- The doubles next to a value lie twice as close below it as above. -/
def Binary.isLowerEdge (b : Binary) : Bool :=
  b.mantissa = Nat.pow 2 52 && b.exponent > -1074

/-- A decimal number `coefficient * 10 ^ exponent`. -/
structure Decimal where
  coefficient : Nat
  exponent : Int

/-- The same number without a zero at the end of its coefficient. -/
def Decimal.dropZero (d : Decimal) : Decimal :=
  if d.coefficient % 10 = 0 then
    { coefficient := d.coefficient / 10, exponent := d.exponent + 1 }
  else d

/-- A double scaled for comparison with multiples of `10 ^ grid`: four times the value is
    `4 * mantissa * up`, and one grid step is `4 * down`. -/
structure Scaled where
  up : Nat
  down : Nat

/-- The scaling of a double to a decimal grid. -/
def Binary.scaled (b : Binary) (grid : Int) : Scaled :=
  { up := Nat.pow 2 b.exponent.toNat * Nat.pow 10 (-grid).toNat
    down := Nat.pow 2 (-b.exponent).toNat * Nat.pow 10 grid.toNat }

/-- The multiple `c` of the grid step rounds to the double. -/
def Binary.covers (b : Binary) (s : Scaled) (c : Nat) : Bool :=
  let low := (4 * b.mantissa - if b.isLowerEdge then 1 else 2) * s.up
  let high := (4 * b.mantissa + 2) * s.up
  let point := 4 * c * s.down
  if b.mantissa % 2 = 0 then low ≤ point && point ≤ high else low < point && point < high

/-- The multiple of the grid step that is written for the double: the nearer of its two
    neighbours, a tie going to the even one, if it rounds to the double. -/
def Binary.onGrid? (b : Binary) (grid : Int) : Option Decimal :=
  let s := b.scaled grid
  let below := b.mantissa * s.up / s.down
  let twiceRest := 2 * (b.mantissa * s.up % s.down)
  let belowFirst := twiceRest < s.down || (twiceRest = s.down && below % 2 = 0)
  let candidates := if belowFirst then [below, below + 1] else [below + 1, below]
  (candidates.find? (b.covers s)).map fun c => { coefficient := c, exponent := grid }

/-- The place of the first digit: the value is below `10 ^ magnitude` and at least a tenth of
    it. -/
def Binary.magnitude (b : Binary) : Int :=
  let s := b.scaled (-400)
  ((digits (b.mantissa * s.up / s.down)).length : Int) - 400

/-- The shortest decimal that rounds to a positive double, taken from the coarsest grid with a
    hit.  A hit ends in a zero only where it is the next power of ten. -/
def Binary.shortest (b : Binary) : Decimal :=
  let hits := (List.range 17).filterMap fun k => b.onGrid? (b.magnitude - (k + 1 : Nat))
  (hits.headD { coefficient := 0, exponent := 0 }).dropZero

/-! ## Writing -/

/-- Numbers are written positionally when the point stands at most 16 places after the first
    digit and at most 4 places before it, always with a digit after the point; all others have
    one digit before the point and an exponent. -/
def ofDecimal (negative : Bool) (d : Decimal) : Number :=
  let ds := (digits d.coefficient).map digitValue
  let point : Int := ds.length + d.exponent
  if 0 ≤ d.exponent && point ≤ 16 then
    { negative, whole := d.coefficient * Nat.pow 10 d.exponent.toNat, fraction := [0], exponent := none }
  else if 0 < point && point ≤ 16 then
    { negative
      whole := (ds.take point.toNat).foldl (fun n x => n * 10 + x) 0
      fraction := ds.drop point.toNat
      exponent := none }
  else if -5 < point && point ≤ 0 then
    { negative
      whole := 0
      fraction := List.replicate (-point).toNat 0 ++ ds
      exponent := none }
  else
    { negative, whole := ds.headD 0, fraction := ds.drop 1, exponent := some (point - 1) }

/-- The literal written for a finite double. -/
def ofFloat (x : Float) : Number :=
  let bits := x.toBits
  let negative := bits.toNat / Nat.pow 2 63 % 2 = 1
  if bits.toNat % Nat.pow 2 63 = 0 then { negative, whole := 0, fraction := [0], exponent := none }
  else ofDecimal negative (Binary.ofBits bits).shortest

/-! ## Reading -/

/-- A literal as `significand * 10 ^ exponent` with a significand of 64 bits. -/
structure Approximation where
  significand : Nat
  exponent : Int

/-- Takes in digits of the whole part; those that no longer fit only raise the exponent. -/
def absorbWhole : Nat → List Nat → Approximation
  | s, [] => { significand := s, exponent := 0 }
  | s, d :: ds =>
    if s * 10 + d < Nat.pow 2 64 then absorbWhole (s * 10 + d) ds
    else { significand := s, exponent := (d :: ds).length }

/-- Takes in digits after the point; from the first that no longer fits on they are dropped. -/
def absorbFraction : Approximation → List Nat → Approximation
  | a, [] => a
  | a, d :: ds =>
    if a.significand * 10 + d < Nat.pow 2 64 then
      absorbFraction { significand := a.significand * 10 + d, exponent := a.exponent - 1 } ds
    else a

/-- Scales a double by a power of ten: one multiplication or division for exponents up to 308;
    smaller numbers are first divided by `10 ^ 308`, larger ones are out of range. -/
def scale? : Nat → Float → Int → Option Float
  | 0, _, _ => none
  | n + 1, x, e =>
    if e.natAbs ≤ 308 then
      let power := Float.ofScientific 1 false e.natAbs
      let y := if 0 ≤ e then x * power else x / power
      if y.isInf then none else some y
    else if x == 0 then some x
    else if 0 ≤ e then none
    else scale? n (x / 1e308) (e + 308)

/-- The double that a literal stands for; fails when it is out of range. -/
def toFloat? (n : Number) : Option Float :=
  let a := absorbFraction (absorbWhole 0 ((digits n.whole).map digitValue)) n.fraction
  let exponent := n.exponent.getD 0
  let size :=
    if exponent.natAbs < Nat.pow 2 31 then scale? 8 a.significand.toUInt64.toFloat (a.exponent + exponent)
    else if a.significand = 0 || exponent < 0 then some 0
    else none
  size.map fun x => if n.negative then -x else x

end Number

namespace Json

/-- The value of a double. -/
def double (x : Float) : Json :=
  .num (.ofFloat x)

/-- Reads a number as a double. -/
def double? : Json → Option Float
  | .num n => n.toFloat?
  | _ => none

end Json

end Statewalk
