import Statewalk.Strategy.Loop

/-! # Simulation

Runs the program once along the choices that the engine makes.  States are not matched and the
search never steps back: it stops at the first dead end, end state or violation.
-/

namespace Statewalk.Simulation

variable {E P L : Type} [Engine E] [Checkable E P] [Listener E P L]

/-- One iteration. -/
def iterate (_ : Unit) : SearchM E P L (Turn Unit StopReason) := do
  Search.pollProbe
  if ← Search.forward then
    Search.onRun Run.descend
    Search.announce .stateAdvanced
    if ← Search.look (·.atViolation) then
      Search.announceViolation
      return .stop .propertyViolated
    else if Engine.isEnd (← Search.look (·.engine)) then return .stop .endStateReached
    else return .again ()
  else return .stop (← Search.settleDeadEnd)

/-- Runs the program once. -/
def explore (budget : Nat) : SearchM E P L StopReason := do
  Search.change (Run.setMatching false)
  Search.change fun r => { r with depth := 0 }
  Search.announce .searchStarted
  Search.repeatUntilDone iterate budget ()

/-- Runs a simulation. -/
def run (budget : Nat) : SearchM E P L Outcome :=
  Search.conduct "simulation" (explore budget)

end Statewalk.Simulation
