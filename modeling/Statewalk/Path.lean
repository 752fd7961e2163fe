import Statewalk.Json.Record

/-! # Paths

The transitions that led from the initial state to the current one.
-/

namespace Statewalk

/-- The number by which an engine knows a state. -/
abbrev StateId := Nat

/-- One step of a path: the thread that ran, the choice it took and the state it reached. -/
structure Transition where
  thread : Nat
  choice : String
  state : StateId
deriving DecidableEq, Repr

namespace Transition

/-- The record of a transition. -/
def toJson (t : Transition) : Json :=
  .object [("thread_id", .nat t.thread), ("choice", .text t.choice), ("state_id", .nat t.state)]

/-- Reads the record of a transition. -/
def ofJson? (j : Json) : Option Transition := do
  let [thread, choice, state] ← j.slots? ["thread_id", "choice", "state_id"] | none
  return {
    thread := ← thread.required Json.word32?
    choice := ← choice.required Json.text?
    state := ← state.required Json.word64? }

end Transition

/-- The way from the initial state, with the last step first. -/
structure Path where
  application : String
  recent : List Transition := []
deriving DecidableEq, Repr

namespace Path

/-- The steps in the order in which they were taken. -/
def transitions (p : Path) : List Transition :=
  p.recent.reverse

/-- The path with the given steps. -/
def ofTransitions (application : String) (ts : List Transition) : Path :=
  { application, recent := ts.reverse }

/-- The number of steps. -/
def length (p : Path) : Nat :=
  p.recent.length

/-- Adds a step at the end. -/
def push (t : Transition) (p : Path) : Path :=
  { p with recent := t :: p.recent }

/-- Takes the last step away, if there is one. -/
def pop (p : Path) : Path :=
  { p with recent := p.recent.tail }

/-- The last step. -/
def last? (p : Path) : Option Transition :=
  p.recent.head?

/-- Keeps the first `n` steps. -/
def truncate (n : Nat) (p : Path) : Path :=
  { p with recent := p.recent.drop (p.recent.length - n) }

/-! ## Laws

What each operation does to the steps in order. -/

@[simp] theorem length_push (t : Transition) (p : Path) : (p.push t).length = p.length + 1 := rfl

@[simp] theorem length_pop (p : Path) : p.pop.length = p.length - 1 := by
  simp [pop, length]

@[simp] theorem length_transitions (p : Path) : p.transitions.length = p.length := by
  simp [transitions, length]

@[simp] theorem transitions_push (t : Transition) (p : Path) :
    (p.push t).transitions = p.transitions ++ [t] := by
  simp [push, transitions]

@[simp] theorem transitions_pop (p : Path) : p.pop.transitions = p.transitions.dropLast := by
  simp [pop, transitions]

@[simp] theorem transitions_truncate (n : Nat) (p : Path) :
    (p.truncate n).transitions = p.transitions.take n := by
  simp [truncate, transitions, List.take_reverse]

@[simp] theorem transitions_ofTransitions (a : String) (ts : List Transition) :
    (ofTransitions a ts).transitions = ts := by
  simp [ofTransitions, transitions]

@[simp] theorem pop_push (t : Transition) (p : Path) : (p.push t).pop = p := rfl

@[simp] theorem last?_push (t : Transition) (p : Path) : (p.push t).last? = some t := rfl

/-! ## Records -/

/-- The record of a path. -/
def toJson (p : Path) : Json :=
  .object [("application", .text p.application),
    ("transitions", .list Transition.toJson p.transitions)]

/-- Reads the record of a path. -/
def ofJson? (j : Json) : Option Path := do
  let [application, transitions] ← j.slots? ["application", "transitions"] | none
  return ofTransitions (← application.required Json.text?)
    (← transitions.required (Json.list? Transition.ofJson?))

end Path

end Statewalk
