import Statewalk.Run

/-! # Listeners

A listener is told of the events of a search.  It may look at the run and change it, keep state of
its own, and fail; what it did before it failed stays done.
-/

namespace Statewalk

/-- Something that is told of events. -/
class Listener (E P L : Type) extends Named L where
  /-- What the listener does when it is told of an event. -/
  hear : Event → EStateM Failure (L × Run E P) Unit

namespace Listener

variable {E P L : Type} [Listener E P L]

/-- The outcome of telling listeners: whether one failed, the listeners and the run after. -/
structure Told (L E P : Type) where
  verdict : Except Failure Unit
  listener : L
  run : Run E P

/-- The run after a listener failed.  A fault leaves no trace. -/
def noteFailure (event : Event) (name : String) (r : Run E P) : Failure → Run E P
  | .fault _ => r
  | .outOfFuel => r
  | f => r.record (.listenerFailed name event f.message)

/-- Tells a listener of an event. -/
def tell (event : Event) (l : L) (r : Run E P) : Told L E P :=
  match hear event (l, r.record (.called (Named.name l) event)) with
  | .ok _ (l, r) => { verdict := .ok (), listener := l, run := r }
  | .error f (l, r) =>
    let name := Named.name l
    { verdict := .error (f.raisedBy event name)
      listener := l
      run := noteFailure event name r f }

/-- Tells listeners of an event in order; those after one that fails are not told. -/
def tellAll (event : Event) : List L → Run E P → Told (List L) E P
  | [], r => { verdict := .ok (), listener := [], run := r }
  | l :: ls, r =>
    let told := tell event l r
    match told.verdict with
    | .error f => { verdict := .error f, listener := told.listener :: ls, run := told.run }
    | .ok _ =>
      let rest := tellAll event ls told.run
      { rest with listener := told.listener :: rest.listener }

end Listener

end Statewalk
