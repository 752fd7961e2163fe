import Statewalk.Path
import Statewalk.Threads

/-! # Engines

An engine executes the explored program.  It steps forward one choice at a time, steps back to the
choice before, knows the state it is in, and may hand out snapshots that it can return to.

An engine's path and thread list are live: others may look at them at any time and change them
under the engine's hands, so they can also be written.
-/

namespace Statewalk

/-- A point that an engine can be asked to return to.  The payload is known only to the kind of
    engine that made it; it is absent from a snapshot that some other kind of engine made. -/
structure Snapshot (α : Type) where
  pathLength : Nat
  payload : Option α

/-- What the search needs of an engine. -/
class Engine (E : Type) where
  /-- The payload of the engine's snapshots. -/
  Saved : Type
  /-- Takes the next choice; `false` if the current state has none left. -/
  forward : E → Bool × E
  /-- Returns to the state before; `false` at the root. -/
  backtrack : E → Bool × E
  /-- The last step reached a state not seen before. -/
  isNew : E → Bool
  isEnd : E → Bool
  isIgnored : E → Bool
  /-- Marks the current state as one that is not to be explored, or takes the mark away. -/
  ignore : Bool → E → E
  stateId : E → StateId
  /-- The last move executed something. -/
  occurred : E → Bool
  path : E → Path
  withPath : Path → E → E
  threads : E → ThreadList
  withThreads : ThreadList → E → E
  /-- A snapshot of the current point, if the engine has snapshots. -/
  snapshot? : E → Option (Snapshot Saved)
  /-- Returns to a snapshot; `false` if it is refused. -/
  restore : Snapshot Saved → E → Bool × E
  /-- Lets the next step choose afresh. -/
  resetChoice : E → E
  /-- The engine's transitions are told in the diagnostics. -/
  isTraced : E → Bool

/-- The number of steps of an engine's path. -/
def Engine.pathLength {E : Type} [Engine E] (e : E) : Nat :=
  (Engine.path e).length

end Statewalk
