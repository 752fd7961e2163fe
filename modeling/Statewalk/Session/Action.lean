import Statewalk.Run

/-! # Actions

What can be done to a run from outside a strategy: by a listener when it is told of an event, or
by whoever drives the session between two steps.  Each action answers with a value.
-/

namespace Statewalk

/-- An action on a run. -/
inductive Action (P : Type) where
  | terminate
  | requestBacktrack
  | takeBacktrack
  | requestProbe
  | probePending
  | ignore (mark : Bool)
  | setMatching (enabled : Bool)
  | matching
  | isNew
  | isVisited
  | stateDepth (state : StateId)
  | setDepthLimit (limit : Nat)
  | depthLimit
  | hasMemory
  /-- Records a violation of a property that is not checked. -/
  | raise (property : P)
  | endsAtViolation
  | currentError
  | lastError
  | hasErrors
  | errors
  /-- Steps the engine forward without telling the search. -/
  | engineForward
  /-- Steps the engine back without telling the search. -/
  | engineBacktrack
  | engineResetChoice
  | engineIsNew
  | isEnd
  | isIgnored
  | occurred
  | path
  | truncatePath (length : Nat)
  | threads
  | setThread (id : Nat) (status : ThreadStatus)

namespace Action

variable {E P : Type} [Engine E] [Property P]

/-- A change of the run that has nothing to answer. -/
def change (f : Run E P → Run E P) : RunM E P Json := do
  modify f
  return .null

/-- A look at the run. -/
def look (f : Run E P → Json) : RunM E P Json :=
  return f (← get)

/-- An operation that answers yes or no. -/
def ask (f : Run E P → Bool × Run E P) : RunM E P Json :=
  return .bool (← modifyGet f)

/-- What is known of a violation, if there is one. -/
def report (r : Run E P) (v : Option (Violation P)) : Json :=
  .nullable (fun v => (r.summary v).toJson) v

/-- Gives a thread a new status; answers whether there is such a thread. -/
def changeThread (id : Nat) (status : ThreadStatus) (r : Run E P) : Bool × Run E P :=
  let threads := Engine.threads r.engine
  ((threads.find? id).isSome,
    { r with engine := Engine.withThreads (threads.setStatus id status) r.engine })

/-- Performs an action. -/
def perform : Action P → RunM E P Json
  | .terminate => change Run.terminate
  | .requestBacktrack => ask fun r => (true, r.requestBacktrack)
  | .takeBacktrack => ask Run.takeBacktrackRequest
  | .requestProbe => change Run.requestProbe
  | .probePending => look fun r => .bool r.probeRequested
  | .ignore mark => change (Run.ignore mark)
  | .setMatching enabled => change (Run.setMatching enabled)
  | .matching => look fun r => .bool r.matching
  | .isNew => do return .bool (← Run.isNew)
  | .isVisited => do return .bool !(← Run.isNew)
  | .stateDepth s => do
    match (← get).depths.get s with
    | .ok d => return .nat d
    | .error f => throw f
  | .setDepthLimit limit => change (Run.setDepthLimit limit)
  | .depthLimit => look fun r => .nat r.config.depthLimit
  | .hasMemory => ask Run.hasMemory
  | .raise p => do
    modify (Run.raise p)
    look fun r => .nat r.violations.length
  | .endsAtViolation => ask Run.endsAtViolation
  | .currentError => look fun r => report r r.currentViolation?
  | .lastError => look fun r => report r r.violations.getLast?
  | .hasErrors => look fun r => .bool !r.violations.isEmpty
  | .errors => look fun r => .list Summary.toJson r.summaries
  | .engineForward => ask Run.stepForward
  | .engineBacktrack => ask Run.stepBack
  | .engineResetChoice => change fun r => { r with engine := Engine.resetChoice r.engine }
  | .engineIsNew => look fun r => .bool (Engine.isNew r.engine)
  | .isEnd => look fun r => .bool (Engine.isEnd r.engine)
  | .isIgnored => look fun r => .bool (Engine.isIgnored r.engine)
  | .occurred => look fun r => .bool (Engine.occurred r.engine)
  | .path => look fun r => (Engine.path r.engine).toJson
  | .truncatePath n =>
    change fun r => { r with engine := Engine.withPath ((Engine.path r.engine).truncate n) r.engine }
  | .threads => look fun r => (Engine.threads r.engine).toJson
  | .setThread id status => ask (changeThread id status)

end Action

end Statewalk
