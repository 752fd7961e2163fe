import Statewalk.Config

/-! # Memory

How much memory is left for a search.  The amount comes either from a ceiling less what the
process takes, or from given readings, one for each time it is asked for.
-/

namespace Statewalk

/-- Where the amount of memory left comes from. -/
inductive Gauge where
  /-- A ceiling, less the bytes that the process takes. -/
  | process (footprint : Nat)
  /-- The answer to each question; none means that the amount is not known. -/
  | readings (reading : Nat → Option Nat)

/-- A call to a memory source. -/
inductive MemoryCall where
  | available (answer : Option Nat)
  | reclaim
  | configure (minFree : Nat)
deriving DecidableEq, Repr

/-- A memory source. -/
structure Memory where
  gauge : Gauge
  /-- The ceiling of the process; unlimited if absent. -/
  ceiling : Option Nat := none
  /-- Number of times the amount was asked for. -/
  asked : Nat := 0
  reclaims : Nat := 0
  /-- The calls so far, the latest first. -/
  calls : List MemoryCall := []

namespace Memory

/-- The bytes that a process is taken to occupy. -/
def footprint : Nat := Nat.pow 2 24

/-- The memory of the process under a ceiling. -/
def ofCeiling (ceiling : Option Nat) : Memory :=
  { gauge := .process footprint, ceiling }

/-- A source that answers from a list; its last answer stays, and an empty list knows nothing. -/
def ofReadings (answers : List (Option Nat)) : Memory :=
  { gauge := .readings fun k => (answers[k]?.or answers.getLast?).join }

/-- The answer to the next question. -/
def reading (m : Memory) : Option Nat :=
  match m.gauge with
  | .process used => m.ceiling.map (· - used)
  | .readings reading => reading m.asked

/-- The bytes that are left; none if that is not known. -/
def available (m : Memory) : Option Nat × Memory :=
  (m.reading, { m with asked := m.asked + 1, calls := .available m.reading :: m.calls })

/-- Asks for memory to be given back. -/
def reclaim (m : Memory) : Memory :=
  { m with reclaims := m.reclaims + 1, calls := .reclaim :: m.calls }

/-- Takes over the settings of a configuration. -/
def configure (c : Config) (m : Memory) : Memory :=
  { m with
    ceiling := c.maxMemory.map (·.bytes)
    calls := .configure c.minFreeMemory.bytes :: m.calls }

/-- The source is the process, whose reclaims are told in the diagnostics. -/
def isProcess (m : Memory) : Bool :=
  match m.gauge with
  | .process _ => true
  | .readings _ => false

/-- The calls in the order in which they were made. -/
def history (m : Memory) : List MemoryCall :=
  m.calls.reverse

end Memory

end Statewalk
