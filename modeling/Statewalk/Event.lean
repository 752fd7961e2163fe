/-! # Events

The phases of a search that are announced to listeners.
-/

namespace Statewalk

/-- A phase of a search. -/
inductive Event where
  | searchStarted
  | stateAdvanced
  | stateProcessed
  | stateBacktracked
  | stateStored
  | stateRestored
  | propertyViolated
  | searchConstraintHit
  | searchProbed
  | searchFinished
deriving DecidableEq, Repr

namespace Event

/-- The word for an event. -/
def label : Event → String
  | .searchStarted => "searchStarted"
  | .stateAdvanced => "stateAdvanced"
  | .stateProcessed => "stateProcessed"
  | .stateBacktracked => "stateBacktracked"
  | .stateStored => "stateStored"
  | .stateRestored => "stateRestored"
  | .propertyViolated => "propertyViolated"
  | .searchConstraintHit => "searchConstraintHit"
  | .searchProbed => "searchProbed"
  | .searchFinished => "searchFinished"

/-- All events. -/
def all : List Event :=
  [.searchStarted, .stateAdvanced, .stateProcessed, .stateBacktracked, .stateStored,
    .stateRestored, .propertyViolated, .searchConstraintHit, .searchProbed, .searchFinished]

/-- The event with a word. -/
def ofLabel? (s : String) : Option Event :=
  all.find? (·.label = s)

end Event

end Statewalk
