import Statewalk.Run

/-! # Forbidden states

A property that is violated when the search enters one of a set of states.
-/

namespace Statewalk

/-- The states that must not be entered, and the last of them that was. -/
structure ForbiddenStates where
  states : List StateId
  hit : Option StateId := none
deriving DecidableEq, Repr

namespace ForbiddenStates

/-- The check of a state. -/
def checkState (s : StateId) (p : ForbiddenStates) : Bool × ForbiddenStates :=
  if s ∈ p.states then (false, { p with hit := some s }) else (true, p)

/-- What is known of the last violation. -/
def message (p : ForbiddenStates) : Option String :=
  p.hit.map fun s => "reached forbidden state " ++ toString s

end ForbiddenStates

instance : Property ForbiddenStates where
  name _ := "forbidden_states"
  reset p := { p with hit := none }
  message := ForbiddenStates.message

instance {E : Type} [Engine E] : Checkable E ForbiddenStates where
  check r p := p.checkState (Engine.stateId r.engine)

end Statewalk
