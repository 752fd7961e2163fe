import Statewalk.Engine

/-! # Scripted engines

An engine that answers each step forward from a list of Booleans.  Every step that succeeds
reaches a state with the next number; once the list is used up no step succeeds.
-/

namespace Statewalk

/-- An engine with a list of answers. -/
structure ScriptedEngine where
  /-- Answers that are still to come. -/
  script : List Bool
  nextId : StateId := 1
  /-- The states of the current path, the current one first. -/
  states : List StateId := [0]
  /-- The last move was a step forward that succeeded, or there was none. -/
  fresh : Bool := true
  ignored : Bool := false
  path : Path := { application := "scripted" }
  threads : ThreadList := {}

namespace ScriptedEngine

/-- Steps forward as the script says. -/
def forward (e : ScriptedEngine) : Bool × ScriptedEngine :=
  match e.script with
  | true :: script =>
    (true, { e with
      script
      nextId := e.nextId + 1
      states := e.nextId :: e.states
      fresh := true
      path := e.path.push
        { thread := 0, choice := "step " ++ toString e.nextId, state := e.nextId } })
  | _ => (false, { e with script := e.script.tail, fresh := false })

/-- Steps back; the first state stays. -/
def backtrack (e : ScriptedEngine) : Bool × ScriptedEngine :=
  match e.states with
  | _ :: below :: rest =>
    (true, { e with states := below :: rest, fresh := false, path := e.path.pop })
  | _ => (false, e)

instance : Engine ScriptedEngine where
  Saved := Unit
  forward := forward
  backtrack := backtrack
  isNew e := e.fresh
  isEnd _ := false
  isIgnored e := e.ignored
  ignore mark e := { e with ignored := mark }
  stateId e := e.states.headD 0
  occurred e := e.fresh
  path e := e.path
  withPath p e := { e with path := p }
  threads e := e.threads
  withThreads l e := { e with threads := l }
  snapshot? _ := none
  restore _ e := (false, e)
  resetChoice e := e
  isTraced _ := false

end ScriptedEngine

end Statewalk
