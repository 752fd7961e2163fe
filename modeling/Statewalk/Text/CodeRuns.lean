/-! # Runs of code points

Properties of characters as tables of the runs of code points that have them.  Each run is told by its
distance from the one before, so that every table is in ascending order.
-/

namespace Statewalk.Text

/-- Runs of code points: how many are passed over, and how many are in the run after them. -/
abbrev CodeRuns := List (Nat × Nat)

/-- One of the runs holds the code point. -/
def CodeRuns.cover : CodeRuns → Nat → Bool
  | [], _ => false
  | (passed, length) :: runs, code =>
    passed ≤ code && (code < passed + length || cover runs (code - (passed + length)))

end Statewalk.Text
