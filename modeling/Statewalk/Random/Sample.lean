import Statewalk.Random.Stream

/-! # Sampling

Numbers below a bound by widening multiplication, and shuffles.  A draw `v` of `w` bits stands for
the high half of `v * n`; draws whose low half lies beyond the last full multiple of the range are
rejected, so that every result is equally likely.
-/

namespace Statewalk.Random

/-- Draws that a sample may take.  At least half of all draws are accepted, so this bound is never
    met in practice. -/
def attempts : Nat := 4096

/-- The largest low half that is accepted for a range of `n` in words of `width` bits. -/
def zone (width n : Nat) : Nat :=
  n * Nat.pow 2 (width - (Nat.log2 n + 1)) - 1

/-- A number below `n` from draws of 32 bits. -/
def below32 (n : Nat) : Nat → Stream → Nat × Stream
  | 0, r => (0, r)
  | tries + 1, r =>
    let (v, r) := r.word
    let product := v.toNat * n
    if product % Nat.pow 2 32 ≤ zone 32 n then (product / Nat.pow 2 32, r) else below32 n tries r

/-- A number below `n` from draws of 64 bits. -/
def below64 (n : Nat) : Nat → Stream → Nat × Stream
  | 0, r => (0, r)
  | tries + 1, r =>
    let (v, r) := r.doubleWord
    let product := v.toNat * n
    if product % Nat.pow 2 64 ≤ zone 64 n then (product / Nat.pow 2 64, r) else below64 n tries r

/-- Exchanges each of the places `i, i - 1, …, 1` with a random place not after it. -/
def shuffleFrom {α : Type} : Nat → Array α → Stream → Array α × Stream
  | 0, as, r => (as, r)
  | i + 1, as, r =>
    let (j, r) := below32 (i + 2) attempts r
    shuffleFrom i (as.swapIfInBounds (i + 1) j) r

/-- A random order of a list. -/
def shuffle {α : Type} (as : List α) (r : Stream) : List α × Stream :=
  let (as, r) := shuffleFrom (as.length - 1) as.toArray r
  (as.toList, r)

end Statewalk.Random
