import Statewalk.Strategy.Loop

/-! # Depth-first search

Systematic exploration by stepping forward and back.  Every iteration first decides whether the
current state is to be left, and steps back if so; then it tries to go on.  The search is exhausted
when it has to step back at the root.
-/

namespace Statewalk.DepthFirst

variable {E P L : Type} [Engine E] [Checkable E P] [Listener E P L]

/-- The current state is to be left: somebody asked for it, it is known, it is an end state, it is
    ignored, or the depth limit was just reached.  Newness is always asked for, so that the depth
    of the state is recorded. -/
def mustLeave (limitReached : Bool) : SearchM E P L Bool := do
  let isNew ← Search.isNew
  let requested ← Search.update Run.takeBacktrackRequest
  let engine ← Search.look (·.engine)
  return requested || !isNew || Engine.isEnd engine || Engine.isIgnored engine || limitReached

/-- Looks at the limits after a step forward. -/
def checkLimits (limitReached : Bool) : SearchM E P L (Turn Bool StopReason) := do
  let limit ← Search.look (·.config.depthLimit)
  let depth ← Search.look (·.depth)
  if limit ≤ depth then
    Search.announceDepthLimit limit
    return .again true
  else if ← Search.update Run.hasMemory then return .again limitReached
  else
    Search.announceMemoryLimit
    return .stop .constraintHit

/-- Tries to go on from the current state. -/
def advance (limitReached : Bool) : SearchM E P L (Turn Bool StopReason) := do
  if ← Search.forward then
    Search.onRun Run.descend
    Search.announce .stateAdvanced
    if ← Search.settleViolation then return .stop .propertyViolated
    else checkLimits limitReached
  else
    Search.announce .stateProcessed
    return .again limitReached

/-- One iteration.  The state of the loop says whether the last step reached the depth limit. -/
def iterate (limitReached : Bool) : SearchM E P L (Turn Bool StopReason) := do
  Search.pollProbe
  if ← mustLeave limitReached then
    if ← Search.backtrack then
      Search.onRun Run.ascend
      Search.announce .stateBacktracked
      advance false
    else return .stop .exhausted
  else advance limitReached

/-- Explores depth first. -/
def explore (budget : Nat) : SearchM E P L StopReason := do
  Search.change fun r => { r with depth := 0 }
  Search.announce .searchStarted
  Search.repeatUntilDone iterate budget false

/-- Runs a depth-first search. -/
def run (budget : Nat) : SearchM E P L Outcome :=
  Search.conduct "dfs" (explore budget)

end Statewalk.DepthFirst
