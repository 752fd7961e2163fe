import Statewalk.Config
import Statewalk.Event
import Statewalk.Path

/-! # Failures

What ends an operation on a search before its time.  Violations and hit limits are no failures:
they are results of the search.
-/

namespace Statewalk

/-- What ends an operation on a search. -/
inductive Failure where
  /-- The recorded depth of a state was asked for, and there is none. -/
  | unvisited (state : StateId)
  /-- A listener or publisher refused, for a reason of its own. -/
  | complaint (reason : String)
  /-- A listener failed while it was told of an event. -/
  | listener (event : Event) (name : String) (cause : Failure)
  /-- The engine has no snapshots, and the strategy needs them. -/
  | unsupported (strategy : String)
  /-- The engine refused a snapshot. -/
  | restoreFailed (strategy : String)
  | config (error : ConfigError)
  | fault (fault : Fault)
  /-- The run did not come to its end within its budget of iterations. -/
  | outOfFuel
deriving DecidableEq, Repr

namespace Failure

/-- The wording of a failure. -/
def message : Failure → String
  | .unvisited s => "asked for depth of unvisited state " ++ toString s
  | .complaint reason => reason
  | .listener event name cause =>
    "exception during " ++ event.label ++ "() notification in listener '" ++ name ++ "': " ++
      cause.message
  | .unsupported strategy =>
    "strategy '" ++ strategy ++
      "' requires restorable snapshots, which the execution engine does not support"
  | .restoreFailed strategy =>
    "execution engine rejected snapshot restore in strategy '" ++ strategy ++ "'"
  | .config e => "configuration error: " ++ e.message
  | .fault f => f.message
  | .outOfFuel => "iteration budget spent"

/-- A failure as the search reports it when a listener ends with it: a fault and an empty budget
    pass through, everything else is laid to the listener. -/
def raisedBy (event : Event) (name : String) : Failure → Failure
  | .fault f => .fault f
  | .outOfFuel => .outOfFuel
  | cause => .listener event name cause

end Failure

end Statewalk
