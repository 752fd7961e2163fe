import Statewalk.Json.Parser
import Statewalk.Json.Printer
import Statewalk.Path
import Statewalk.Threads

/-! # State graphs

Declared transition systems: numbered states with labelled edges that belong to threads, and
thread lists for the whole graph or for single states.  State 0 is the initial one.
-/

namespace Statewalk

/-- An edge to a state. -/
structure Edge where
  target : StateId
  thread : Nat := 0
  label : String := ""
deriving DecidableEq, Repr

/-- A state of a graph. -/
structure GraphState where
  label : String := ""
  /-- The state is an end state even if it has edges. -/
  flaggedEnd : Bool := false
  edges : List Edge := []
  /-- The threads at this state; those of the graph if absent. -/
  threads : Option (List Thread) := none
deriving DecidableEq, Repr

/-- A declared transition system. -/
structure StateGraph where
  name : String := ""
  states : List GraphState := []
  threads : List Thread := []
deriving DecidableEq, Repr

/-- What is wrong with a graph, or with a change to it. -/
inductive GraphError where
  | empty
  | unknownTarget (source target : StateId)
  | unknownState (state : StateId)
  /-- The text is no record of a graph. -/
  | malformed
deriving DecidableEq, Repr

/-- The wording of a graph error. -/
def GraphError.message : GraphError → String
  | .empty => "state graph has no states"
  | .unknownTarget s t =>
    "transition " ++ toString s ++ " -> " ++ toString t ++ " targets an unknown state"
  | .unknownState s => "unknown state " ++ toString s
  | .malformed => "invalid state graph"

namespace StateGraph

/-! ## Reading a graph -/

/-- The number of states. -/
def size (g : StateGraph) : Nat :=
  g.states.length

/-- The state with an id. -/
def state? (g : StateGraph) (s : StateId) : Option GraphState :=
  g.states[s]?

/-- The edges of a state. -/
def edges (g : StateGraph) (s : StateId) : List Edge :=
  match g.state? s with
  | some q => q.edges
  | none => []

/-- End states are those flagged as such and those without edges. -/
def isEnd (g : StateGraph) (s : StateId) : Bool :=
  match g.state? s with
  | some q => q.flaggedEnd || q.edges.isEmpty
  | none => false

/-- The threads at a state. -/
def threadsAt (g : StateGraph) (s : StateId) : List Thread :=
  ((g.state? s).bind (·.threads)).getD g.threads

/-! ## Validity -/

/-- The first edge whose target is not below `bound`, with its source; the sources are numbered
    from `source`. -/
def strayEdge? (bound : Nat) : StateId → List GraphState → Option (StateId × StateId)
  | _, [] => none
  | source, q :: qs =>
    match q.edges.find? (bound ≤ ·.target) with
    | some e => some (source, e.target)
    | none => strayEdge? bound (source + 1) qs

/-- A graph is valid if it has a state and all its edges lead to states. -/
def validate (g : StateGraph) : Except GraphError Unit :=
  if g.states.isEmpty then .error .empty
  else
    match strayEdge? g.size 0 g.states with
    | some (s, t) => .error (.unknownTarget s t)
    | none => .ok ()

/-! ## Building a graph -/

/-- Adds a state; its id is the number of states before it. -/
def addState (label : String) (g : StateGraph) : StateId × StateGraph :=
  (g.size, { g with states := g.states ++ [{ label }] })

/-- What comes of a change in place: its result, and the graph after it. -/
abbrev Change := Except GraphError Unit × StateGraph

/-- The changed graph, for a caller that keeps its own when the change failed. -/
instance : Coe Change (Except GraphError StateGraph) :=
  ⟨fun change => change.1.map fun _ => change.2⟩

/-- Changes one state. -/
def modifyState (s : StateId) (f : GraphState → GraphState) (g : StateGraph) : Change :=
  if s < g.size then (.ok (), { g with states := g.states.modify s f })
  else (.error (.unknownState s), g)

/-- Adds an edge.  Its target is looked at before its source. -/
def addTransition (source target : StateId) (thread : Nat) (label : String) (g : StateGraph) : Change :=
  if target < g.size then
    g.modifyState source fun q => { q with edges := q.edges ++ [{ target, thread, label }] }
  else (.error (.unknownTarget source target), g)

/-- Flags a state as an end state. -/
def markEnd (s : StateId) (g : StateGraph) : Change :=
  g.modifyState s fun q => { q with flaggedEnd := true }

/-- Gives a state threads of its own. -/
def setThreads (s : StateId) (threads : List Thread) (g : StateGraph) : Change :=
  g.modifyState s fun q => { q with threads := some threads }

end StateGraph

/-! ## Records -/

/-- The record of an edge. -/
def Edge.toJson (e : Edge) : Json :=
  .object [("to", .nat e.target), ("thread", .nat e.thread), ("label", .text e.label)]

/-- Reads the record of an edge. -/
def Edge.ofJson? (j : Json) : Option Edge := do
  let [target, thread, label] ← j.slots? ["to", "thread", "label"] | none
  return {
    target := ← target.required Json.word64?
    thread := ← thread.orDefault 0 Json.word32?
    label := ← label.orDefault "" Json.text? }

/-- The record of a state; its threads are left out when it has none of its own. -/
def GraphState.toJson (q : GraphState) : Json :=
  .object ([("label", .text q.label), ("end", .bool q.flaggedEnd),
    ("edges", .list Edge.toJson q.edges)] ++
    match q.threads with
    | some ts => [("threads", .list Thread.toJson ts)]
    | none => [])

/-- Reads the record of a state. -/
def GraphState.ofJson? (j : Json) : Option GraphState := do
  let [label, flaggedEnd, edges, threads] ← j.slots? ["label", "end", "edges", "threads"] | none
  return {
    label := ← label.orDefault "" Json.text?
    flaggedEnd := ← flaggedEnd.orDefault false Json.bool?
    edges := ← edges.orDefault [] (Json.list? Edge.ofJson?)
    threads := ← threads.orDefault none (Json.nullable? (Json.list? Thread.ofJson?)) }

namespace StateGraph

/-- The record of a graph. -/
def toJson (g : StateGraph) : Json :=
  .object [("name", .text g.name), ("states", .list GraphState.toJson g.states),
    ("threads", .list Thread.toJson g.threads)]

/-- Reads the record of a graph, valid or not. -/
def ofJson? (j : Json) : Option StateGraph := do
  let [name, states, threads] ← j.slots? ["name", "states", "threads"] | none
  return {
    name := ← name.orDefault "" Json.text?
    states := ← states.required (Json.list? GraphState.ofJson?)
    threads := ← threads.orDefault [] (Json.list? Thread.ofJson?) }

/-- Checks the record of a graph. -/
def load (record : Option StateGraph) : Except GraphError StateGraph :=
  match record with
  | none => .error .malformed
  | some g => g.validate.map fun _ => g

/-- Reads the text of a valid graph. -/
def parse (s : String) : Except GraphError StateGraph :=
  load ((Json.parse s).bind ofJson?)

end StateGraph

end Statewalk
