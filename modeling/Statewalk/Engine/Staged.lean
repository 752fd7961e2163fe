import Statewalk.Engine

/-! # Staged engines

An engine that plays a list of scenes, one for each step forward, with states, flags and threads
as the scenes give them.  It can be made to refuse steps back and snapshots after a number of
them.  The list of scenes is never rolled back, and the mark of an ignored state is one mark for
the whole engine.
-/

namespace Statewalk

/-- What a step forward leads to. -/
structure Scene where
  /-- The state; if absent, the number of the step. -/
  state : Option StateId := none
  isEnd : Bool := false
  isNew : Bool := true
  thread : Nat := 0
  choice : String := "step"
  /-- Replaces the thread list if present. -/
  threads : Option (List Thread) := none
deriving Repr

/-- A state that the engine is or was in. -/
structure Place where
  state : StateId := 0
  isEnd : Bool := false
deriving DecidableEq, Repr

namespace StagedEngine

/-- What a snapshot of a staged engine holds. -/
structure Saved where
  places : List Place
  path : Path

end StagedEngine

/-- An engine with a list of scenes. -/
structure StagedEngine where
  /-- Scenes that are still to come; an absent one is a step that fails. -/
  scenes : List (Option Scene)
  /-- The number of the next step that succeeds. -/
  nextStep : StateId := 1
  /-- The places of the current path, the current one first. -/
  places : List Place := [{}]
  isNew : Bool := true
  occurred : Bool := false
  ignored : Bool := false
  /-- Steps back that still succeed; unlimited if absent. -/
  backtracksLeft : Option Nat := none
  /-- Snapshots that are still accepted; unlimited if absent. -/
  restoresLeft : Option Nat := none
  /-- The engine hands out snapshots. -/
  hasSnapshots : Bool := false
  /-- The path length that snapshots claim; the real one if absent. -/
  snapshotLength : Option Nat := none
  path : Path := { application := "staged" }
  threads : ThreadList := {}

namespace StagedEngine

/-- The engine after a move that reached no state. -/
def stall (e : StagedEngine) : StagedEngine :=
  { e with isNew := false, occurred := false }

/-- Plays a scene. -/
def enter (s : Scene) (e : StagedEngine) : StagedEngine :=
  let state := s.state.getD e.nextStep
  { e with
    nextStep := e.nextStep + 1
    places := { state, isEnd := s.isEnd } :: e.places
    isNew := s.isNew
    occurred := true
    path := e.path.push { thread := s.thread, choice := s.choice, state }
    threads := match s.threads with
      | some threads => { threads }
      | none => e.threads }

/-- Steps forward as the next scene says. -/
def forward (e : StagedEngine) : Bool × StagedEngine :=
  match e.scenes with
  | some s :: scenes => (true, { e with scenes }.enter s)
  | none :: scenes => (false, { e with scenes }.stall)
  | [] => (false, e.stall)

/-- Steps back; the first place stays. -/
def backtrack (e : StagedEngine) : Bool × StagedEngine :=
  match e.places with
  | _ :: below :: rest =>
    if e.backtracksLeft = some 0 then (false, e)
    else
      (true, { e.stall with
        places := below :: rest
        path := e.path.pop
        backtracksLeft := e.backtracksLeft.map (· - 1) })
  | _ => (false, e)

/-- A snapshot of the places and the path. -/
def snapshot? (e : StagedEngine) : Option (Snapshot Saved) :=
  if e.hasSnapshots then
    some {
      pathLength := e.snapshotLength.getD e.path.length
      payload := some { places := e.places, path := e.path } }
  else none

/-- Returns to the places and the path of a snapshot. -/
def restore (s : Snapshot Saved) (e : StagedEngine) : Bool × StagedEngine :=
  match s.payload with
  | some saved =>
    if e.restoresLeft = some 0 then (false, e)
    else
      (true, { e.stall with
        places := saved.places
        path := saved.path
        restoresLeft := e.restoresLeft.map (· - 1) })
  | none => (false, e)

/-- The current place. -/
def current (e : StagedEngine) : Place :=
  e.places.headD {}

instance : Engine StagedEngine where
  Saved := Saved
  forward := forward
  backtrack := backtrack
  isNew e := e.isNew
  isEnd e := e.current.isEnd
  isIgnored e := e.ignored
  ignore mark e := { e with ignored := mark }
  stateId e := e.current.state
  occurred e := e.occurred
  path e := e.path
  withPath p e := { e with path := p }
  threads e := e.threads
  withThreads l e := { e with threads := l }
  snapshot? := snapshot?
  restore := restore
  resetChoice e := e
  isTraced _ := false

end StagedEngine

end Statewalk
