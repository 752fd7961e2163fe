import Statewalk.Engine.Scripted
import Statewalk.Engine.Staged
import Statewalk.Graph.Engine

/-! # The engines of a session

A session drives a graph engine, a scripted engine or a staged engine.
-/

namespace Statewalk

/-- An engine of one of the three kinds. -/
inductive Stage where
  | graph (e : GraphEngine)
  | scripted (e : ScriptedEngine)
  | staged (e : StagedEngine)

namespace Stage

/-- The payload of a snapshot, by the kind of engine that made it. -/
inductive Saved where
  | graph (s : GraphEngine.Saved)
  | staged (s : StagedEngine.Saved)

/-- The payload if a graph engine made it. -/
def Saved.graph? : Saved → Option GraphEngine.Saved
  | .graph s => some s
  | .staged _ => none

/-- The payload if a staged engine made it. -/
def Saved.staged? : Saved → Option StagedEngine.Saved
  | .graph _ => none
  | .staged s => some s

/-- A snapshot with its payload seen in another way. -/
def retype {α β : Type} (f : α → Option β) (s : Snapshot α) : Snapshot β :=
  { pathLength := s.pathLength, payload := s.payload.bind f }

/-- Lets the engine make a move. -/
def move (onGraph : GraphEngine → Bool × GraphEngine)
    (onScripted : ScriptedEngine → Bool × ScriptedEngine)
    (onStaged : StagedEngine → Bool × StagedEngine) : Stage → Bool × Stage
  | .graph e => (onGraph e).map id .graph
  | .scripted e => (onScripted e).map id .scripted
  | .staged e => (onStaged e).map id .staged

/-- Changes the engine. -/
def change (onGraph : GraphEngine → GraphEngine) (onScripted : ScriptedEngine → ScriptedEngine)
    (onStaged : StagedEngine → StagedEngine) : Stage → Stage
  | .graph e => .graph (onGraph e)
  | .scripted e => .scripted (onScripted e)
  | .staged e => .staged (onStaged e)

/-- Looks at the engine. -/
def look {α : Type} (onGraph : GraphEngine → α) (onScripted : ScriptedEngine → α)
    (onStaged : StagedEngine → α) : Stage → α
  | .graph e => onGraph e
  | .scripted e => onScripted e
  | .staged e => onStaged e

instance : Engine Stage where
  Saved := Saved
  forward := move Engine.forward Engine.forward Engine.forward
  backtrack := move Engine.backtrack Engine.backtrack Engine.backtrack
  isNew := look Engine.isNew Engine.isNew Engine.isNew
  isEnd := look Engine.isEnd Engine.isEnd Engine.isEnd
  isIgnored := look Engine.isIgnored Engine.isIgnored Engine.isIgnored
  ignore mark := change (Engine.ignore mark) (Engine.ignore mark) (Engine.ignore mark)
  stateId := look Engine.stateId Engine.stateId Engine.stateId
  occurred := look Engine.occurred Engine.occurred Engine.occurred
  path := look Engine.path Engine.path Engine.path
  withPath p := change (Engine.withPath p) (Engine.withPath p) (Engine.withPath p)
  threads := look Engine.threads Engine.threads Engine.threads
  withThreads l := change (Engine.withThreads l) (Engine.withThreads l) (Engine.withThreads l)
  snapshot?
    | .graph e => some (retype (some ∘ .graph) e.snapshot)
    | .scripted _ => none
    | .staged e => e.snapshot?.map (retype (some ∘ .staged))
  restore s :=
    move (GraphEngine.restore (retype Saved.graph? s)) (fun e => (false, e))
      (StagedEngine.restore (retype Saved.staged? s))
  resetChoice := change Engine.resetChoice Engine.resetChoice Engine.resetChoice
  isTraced := look Engine.isTraced Engine.isTraced Engine.isTraced

end Stage

end Statewalk
