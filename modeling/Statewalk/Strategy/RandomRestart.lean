import Statewalk.Strategy.Loop

/-! # Random restart

Repeated walks from a snapshot of the start.  Each walk runs forward, without matching states,
until an end state, a dead end, the depth limit, a violation or a request to step back.  Then the
snapshot is restored and the engine chooses afresh.
-/

namespace Statewalk.RandomRestart

variable {E P L : Type} [Engine E] [Checkable E P] [Listener E P L]

/-- The name under which the strategy fails. -/
def name : String := "random_restart"

/-- How one attempt to go on went. -/
inductive Attempt where
  /-- The engine took a step. -/
  | advanced
  /-- The engine could not go on, or did not try. -/
  | halted
deriving DecidableEq, Repr

/-- Tries to go on.  At the depth limit the engine does not move, and the properties are checked
    once more; a request to step back only keeps the engine from moving. -/
def attempt : SearchM E P L Attempt := do
  let limit ← Search.look (·.config.depthLimit)
  let depth ← Search.look (·.depth)
  let interrupted ← Search.update Run.takeBacktrackRequest
  if limit ≤ depth then
    Search.announceDepthLimit limit
    let _ ← Search.update Run.checkProperties
    return .halted
  else if interrupted then return .halted
  else if ← Search.forward then
    Search.onRun Run.descend
    Search.announce .stateAdvanced
    return .advanced
  else
    Search.announce .stateProcessed
    return .halted

/-- Ends a walk: counts it, and goes back to the start unless it was the last one. -/
def finishWalk (pathLimit : Nat) (start : Snapshot (Engine.Saved E)) (walks : Nat) :
    SearchM E P L (Turn Nat StopReason) := do
  let walks := walks + 1
  Search.change fun r => r.record (.walked walks r.depth)
  if pathLimit ≤ walks then return .stop .pathLimitReached
  else
    Search.restore start name
    Search.change fun r => { r with engine := Engine.resetChoice r.engine }
    Search.announce .stateRestored
    return .again walks

/-- One iteration.  The state of the loop is the number of finished walks. -/
def iterate (pathLimit : Nat) (start : Snapshot (Engine.Saved E)) (walks : Nat) :
    SearchM E P L (Turn Nat StopReason) := do
  Search.pollProbe
  let attempt ← attempt
  if ← Search.look (·.atViolation) then
    Search.announceViolation
    if ← Search.update Run.endsAtViolation then return .stop .propertyViolated
    else
      let _ ← Search.update Run.takeBacktrackRequest
      finishWalk pathLimit start walks
  else if attempt = .advanced && !Engine.isEnd (← Search.look (·.engine)) then return .again walks
  else finishWalk pathLimit start walks

/-- Walks at most `pathLimit` times, and at least once. -/
def explore (pathLimit budget : Nat) : SearchM E P L StopReason := do
  match Engine.snapshot? (← Search.look (·.engine)) with
  | none => throw (.unsupported name)
  | some start =>
    Search.change (Run.setMatching false)
    Search.change fun r => { r with depth := start.pathLength }
    Search.announce .searchStarted
    Search.repeatUntilDone (iterate (max pathLimit 1) start) budget 0

/-- Runs random walks. -/
def run (pathLimit budget : Nat) : SearchM E P L Outcome :=
  Search.conduct name (explore pathLimit budget)

end Statewalk.RandomRestart
