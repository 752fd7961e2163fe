/-! # Faults

Counters, depths and sizes are words of 64 bits.  An operation whose result has no such word, that
needs a larger table than there can be, or that would step back above the root, is a fault: it ends
whatever is being done and cannot be answered by a listener.
-/

namespace Statewalk

/-- The number of values of a word: every counter stays below it. -/
def wordLimit : Nat := Nat.pow 2 64

/-- What makes an operation impossible. -/
inductive Fault where
  | additionOverflow
  | multiplicationOverflow
  | negationOverflow
  /-- A table was to grow beyond its largest size. -/
  | capacityOverflow
  /-- The depth was to be lowered at the root. -/
  | aboveRoot
deriving DecidableEq, Repr

/-- The wording of a fault. -/
def Fault.message : Fault → String
  | .additionOverflow => "attempt to add with overflow"
  | .multiplicationOverflow => "attempt to multiply with overflow"
  | .negationOverflow => "attempt to negate with overflow"
  | .capacityOverflow => "capacity overflow"
  | .aboveRoot => "backtracked above the root"

/-- The sum of two words. -/
def addWords (a b : Nat) : Except Fault Nat :=
  if a + b < wordLimit then .ok (a + b) else .error .additionOverflow

/-- The product of two words. -/
def mulWords (a b : Nat) : Except Fault Nat :=
  if a * b < wordLimit then .ok (a * b) else .error .multiplicationOverflow

theorem addWords_eq_ok {a b n : Nat} : addWords a b = .ok n ↔ a + b < wordLimit ∧ a + b = n := by
  unfold addWords
  split <;> simp [*]

end Statewalk
