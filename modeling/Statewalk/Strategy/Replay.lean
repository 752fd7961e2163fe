import Statewalk.Strategy.Loop

/-! # Replay

Follows a single path.  States are not matched while it is replayed; a listener may still ask to
step back.
-/

namespace Statewalk.Replay

variable {E P L : Type} [Engine E] [Checkable E P] [Listener E P L]

/-- Goes on from the current state; at a dead end a violation is announced too. -/
def advance : SearchM E P L (Turn Unit StopReason) := do
  if ← Search.forward then
    Search.onRun Run.descend
    Search.announce .stateAdvanced
    if ← Search.settleViolation then return .stop .propertyViolated
    else if Engine.isEnd (← Search.look (·.engine)) then return .stop .endStateReached
    else return .again ()
  else return .stop (← Search.settleDeadEnd)

/-- One iteration. -/
def iterate (_ : Unit) : SearchM E P L (Turn Unit StopReason) := do
  Search.pollProbe
  if ← Search.update Run.takeBacktrackRequest then
    if ← Search.backtrack then
      Search.onRun Run.ascend
      Search.announce .stateBacktracked
      advance
    else return .stop .exhausted
  else advance

/-- Replays a path. -/
def explore (budget : Nat) : SearchM E P L StopReason := do
  Search.change (Run.setMatching false)
  Search.change fun r => { r with depth := 0 }
  Search.announce .searchStarted
  let reason ← Search.repeatUntilDone iterate budget ()
  Search.change (Run.setMatching true)
  return reason

/-- Runs a replay. -/
def run (budget : Nat) : SearchM E P L Outcome :=
  Search.conduct "path_replay" (explore budget)

end Statewalk.Replay
