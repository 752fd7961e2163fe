import Statewalk.Listener

/-! # Statistics

A listener that keeps one of the run's tallies up to date.
-/

namespace Statewalk

/-- A listener that keeps the tally with a number. -/
structure Statistics where
  tally : Nat
deriving DecidableEq, Repr

namespace Statistics

variable {E P : Type} [Engine E]

/-- Counts the state that the search just went into as new or as known. -/
def countState (isNew isEnd : Bool) (t : Tally) : Tally :=
  let t := if isNew then { t with newStates := t.newStates + 1 }
    else { t with visitedStates := t.visitedStates + 1 }
  if isEnd then { t with endStates := t.endStates + 1 } else t

/-- Brings the tally up to date with an event that needs no question to the run. -/
def count (event : Event) (depth : Nat) (t : Tally) : Tally :=
  match event with
  | .searchStarted => ({} : Tally).atDepth depth
  | .stateAdvanced => t.atDepth depth
  | .stateProcessed => { t with processed := t.processed + 1 }
  | .stateBacktracked => { t with backtracked := t.backtracked + 1 }.atDepth depth
  | .stateStored => { t with stored := t.stored + 1 }
  | .stateRestored => { t with restored := t.restored + 1 }.atDepth depth
  | .propertyViolated => { t with violations := t.violations + 1 }
  | .searchConstraintHit => { t with constraints := t.constraints + 1 }
  | .searchProbed => { t with probes := t.probes + 1 }
  | .searchFinished => t.atDepth depth

/-- Brings a tally of the run up to date with an event. -/
def update (tally : Nat) (event : Event) : RunM E P Unit := do
  modify fun r => r.modifyTally tally (count event r.depth)
  if event = .stateAdvanced then
    let isNew ← Run.isNew
    modify fun r => r.modifyTally tally (countState isNew (Engine.isEnd r.engine))

end Statistics

/-- An operation on the run, made by a listener. -/
def Listener.onRun {E P L α : Type} (x : RunM E P α) : EStateM Failure (L × Run E P) α := fun s =>
  match x s.2 with
  | .ok a r => .ok a (s.1, r)
  | .error f r => .error f (s.1, r)

instance : Named Statistics where
  name _ := "statistics"

instance {E P : Type} [Engine E] : Listener E P Statistics where
  hear event := do
    let (l, _) ← get
    Listener.onRun (Statistics.update l.tally event)

end Statewalk
