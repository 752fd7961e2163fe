import Statewalk.Random.Sample
import Statewalk.Run

/-! # Heuristics

A heuristic gives each state that is about to be queued a priority; states with lower priorities
are expanded first.
-/

namespace Statewalk

/-- Something that gives priorities, and may change while it does. -/
class Heuristic (H E P : Type) extends Named H where
  priority : Run E P → H → Except Fault Int × H

/-- A word read as a signed number of 64 bits. -/
def signedWord (n : Nat) : Int :=
  Int.bmod n wordLimit

/-- Shallow states first. -/
structure BreadthFirst where
deriving DecidableEq, Repr

instance {E P : Type} : Heuristic BreadthFirst E P where
  name _ := "breadth_first"
  priority r h := (.ok (signedWord r.depth), h)

/-- Deep states first. -/
structure DeepestFirst where
deriving DecidableEq, Repr

/-- The opposite of a signed number of 64 bits; the least one has none. -/
def negateSigned (i : Int) : Except Fault Int :=
  if i = -(Nat.pow 2 63 : Nat) then .error .negationOverflow else .ok (-i)

instance {E P : Type} : Heuristic DeepestFirst E P where
  name _ := "deepest_first"
  priority r h := (negateSigned (signedWord r.depth), h)

/-- A random order. -/
structure RandomOrder where
  stream : Random.Stream

namespace RandomOrder

/-- The random order of a seed. -/
def ofSeed (seed : Nat) : RandomOrder :=
  { stream := .ofSeed seed.toUInt64 }

end RandomOrder

instance {E P : Type} : Heuristic RandomOrder E P where
  name _ := "random"
  priority _ h :=
    let draw := Random.below64 (Nat.pow 2 32 - 1) Random.attempts h.stream
    (.ok draw.1, { stream := draw.2 })

end Statewalk
