import Statewalk.Search

/-! # Loops

The loop that all strategies share: iterate until the search is done or an iteration says stop.
The number of iterations is bounded by a budget, and to spend it is a failure of its own.
-/

namespace Statewalk

/-- How an iteration ends: go on with a state of the loop, or stop with a result. -/
inductive Turn (α β : Type) where
  | again (state : α)
  | stop (result : β)

/-- Iterates until `isDone` holds before an iteration, with the result `ifDone`, or an iteration
    stops. -/
def loop {σ α β : Type} (isDone : σ → Bool) (ifDone : β)
    (iterate : α → EStateM Failure σ (Turn α β)) : Nat → α → EStateM Failure σ β
  | 0, _ => throw .outOfFuel
  | budget + 1, a => do
    if isDone (← get) then return ifDone
    else
      match ← iterate a with
      | .again a => loop isDone ifDone iterate budget a
      | .stop b => return b

section Laws

variable {σ α β : Type} {isDone : σ → Bool} {ifDone : β}
  {iterate : α → EStateM Failure σ (Turn α β)}

theorem EStateM.get_apply (s : σ) : (EStateM.get : EStateM Failure σ σ) s = .ok s s := rfl

theorem EStateM.get_bind_apply (f : σ → EStateM Failure σ α) (s : σ) :
    ((get : EStateM Failure σ σ) >>= f) s = f s s := rfl

@[simp] theorem loop_zero (a : α) (s : σ) :
    loop isDone ifDone iterate 0 a s = .error .outOfFuel s := rfl

theorem loop_succ_of_done {s : σ} (h : isDone s = true) (budget : Nat) (a : α) :
    loop isDone ifDone iterate (budget + 1) a s = .ok ifDone s := by
  simp [loop, bind, EStateM.bind, get, getThe, MonadStateOf.get, EStateM.get_apply, pure,
    EStateM.pure, h]

/-- Unless it is done, a loop iterates once and goes on with what is left of its budget. -/
theorem loop_succ_of_not_done {s : σ} (h : isDone s = false) (budget : Nat) (a : α) :
    loop isDone ifDone iterate (budget + 1) a s = (iterate a >>= fun
      | .again b => loop isDone ifDone iterate budget b
      | .stop b => pure b) s := by
  rw [loop, EStateM.get_bind_apply, h]
  rfl

end Laws

namespace Search

variable {E P L : Type} [Engine E] [Listener E P L]

/-- Iterates until the search is done, which means that it was terminated, or an iteration
    stops; then announces the end. -/
def repeatUntilDone {α : Type} (iterate : α → SearchM E P L (Turn α StopReason)) (budget : Nat)
    (start : α) : SearchM E P L StopReason := do
  let reason ← loop (·.run.done) .terminated iterate budget start
  announce .searchFinished
  return reason

/-- Announces the violation of the last step, if there is one, and tells whether it ends the
    search. -/
def settleViolation [Property P] : SearchM E P L Bool := do
  if ← look (·.atViolation) then
    announceViolation
    update Run.endsAtViolation
  else return false

/-- Announces that the engine could not go on, and the violation found there, if any. -/
def settleDeadEnd [Property P] : SearchM E P L StopReason := do
  announce .stateProcessed
  if ← look (·.atViolation) then
    announceViolation
    return .propertyViolated
  else return .deadEnd

/-- Announces that the depth limit was reached. -/
def announceDepthLimit (limit : Nat) : SearchM E P L Unit :=
  announceConstraint ("depth limit reached: " ++ toString limit)

/-- Announces that the memory limit was reached. -/
def announceMemoryLimit : SearchM E P L Unit := do
  announceConstraint ("memory limit reached: " ++ (← look (·.config.minFreeMemory)).text)

end Search

end Statewalk
