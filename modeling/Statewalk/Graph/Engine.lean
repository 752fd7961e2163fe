import Statewalk.Engine
import Statewalk.Graph
import Statewalk.Random.Sample

/-! # Exploring a state graph

An engine over a state graph.  Its stack has one frame for each state of the current path, with
the order in which the edges of that state are tried.  `forward` takes the next edge of the top
frame and `backtrack` drops that frame.  The sets of visited and ignored states live as long as
the engine: neither stepping back nor a restored snapshot changes them.
-/

namespace Statewalk

/-- A choice point: a state, the order of its edges, and how many of them were tried. -/
structure Frame where
  state : StateId
  choices : List Nat
  tried : Nat := 0
deriving DecidableEq, Repr

namespace GraphEngine

/-- What a snapshot of a graph engine holds. -/
structure Saved where
  frames : List Frame
  path : Path
deriving DecidableEq, Repr

end GraphEngine

/-- An engine over a state graph. -/
structure GraphEngine where
  graph : StateGraph
  /-- The choice points of the current path, the current one first. -/
  frames : List Frame
  visited : List StateId
  ignored : List StateId
  isNew : Bool
  occurred : Bool
  /-- Shuffles the edges of each state if present. -/
  random : Option Random.Stream
  path : Path
  threads : ThreadList

namespace GraphEngine

/-- The current state. -/
def current (e : GraphEngine) : StateId :=
  match e.frames with
  | f :: _ => f.state
  | [] => 0

/-- The edges of a state in declaration order; end states have none to take. -/
def declared (g : StateGraph) (s : StateId) : List Nat :=
  if g.isEnd s then [] else List.range (g.edges s).length

/-- An order of choices, shuffled if the engine makes random choices. -/
def arrange (choices : List Nat) : Option Random.Stream → List Nat × Option Random.Stream
  | some r =>
    let (choices, r) := Random.shuffle choices r
    (choices, some r)
  | none => (choices, none)

/-- The engine with the threads of its current state. -/
def syncThreads (e : GraphEngine) : GraphEngine :=
  { e with threads := { threads := e.graph.threadsAt e.current } }

/-- An engine at the initial state of a valid graph. -/
def ofGraph (g : StateGraph) : Except GraphError GraphEngine :=
  g.validate.map fun _ =>
    { graph := g
      frames := [{ state := 0, choices := declared g 0 }]
      visited := [0]
      ignored := []
      isNew := true
      occurred := false
      random := none
      path := { application := g.name }
      threads := { threads := g.threadsAt 0 } }

/-- Lets the engine try edges in a random order, from the root on. -/
def withRandomChoices (seed : Nat) (e : GraphEngine) : GraphEngine :=
  let r := Random.Stream.ofSeed seed.toUInt64
  match e.frames.reverse with
  | root :: rest =>
    let (choices, r) := Random.shuffle root.choices r
    { e with frames := ({ root with choices } :: rest).reverse, random := some r }
  | [] => { e with random := some r }

/-! ## Moves -/

/-- The engine after a move that reached no state. -/
def stall (e : GraphEngine) : GraphEngine :=
  { e with isNew := false, occurred := false }

/-- Follows an edge to its target. -/
def enter (edge : Edge) (e : GraphEngine) : GraphEngine :=
  let (choices, random) := arrange (declared e.graph edge.target) e.random
  syncThreads
    { e with
      frames := { state := edge.target, choices } :: e.frames
      visited := if edge.target ∈ e.visited then e.visited else edge.target :: e.visited
      isNew := edge.target ∉ e.visited
      occurred := true
      random
      path := e.path.push
        { thread := edge.thread, choice := edge.label, state := edge.target } }

/-- Takes the next edge of the current state. -/
def forward (e : GraphEngine) : Bool × GraphEngine :=
  match e.frames with
  | [] => (false, e)
  | top :: rest =>
    match top.choices[top.tried]? with
    | none => (false, e.stall)
    | some choice =>
      let e := { e with frames := { top with tried := top.tried + 1 } :: rest }
      match (e.graph.edges top.state)[choice]? with
      | none => (false, e.stall)
      | some edge => (true, e.enter edge)

/-- Drops the current choice point; the root stays. -/
def backtrack (e : GraphEngine) : Bool × GraphEngine :=
  match e.frames with
  | _ :: below :: rest =>
    (true, syncThreads { e.stall with frames := below :: rest, path := e.path.pop })
  | _ => (false, e)

/-- Marks the current state as ignored, or takes the mark away. -/
def ignore (mark : Bool) (e : GraphEngine) : GraphEngine :=
  let s := e.current
  let others := e.ignored.filter (· ≠ s)
  { e with ignored := if mark then s :: others else others }

/-- A snapshot of the choice points and the path. -/
def snapshot (e : GraphEngine) : Snapshot Saved :=
  { pathLength := e.frames.length - 1
    payload := some { frames := e.frames, path := e.path } }

/-- Returns to the choice points and the path of a snapshot. -/
def restore (s : Snapshot Saved) (e : GraphEngine) : Bool × GraphEngine :=
  match s.payload with
  | some saved => (true, syncThreads { e.stall with frames := saved.frames, path := saved.path })
  | none => (false, e)

/-- Lets the current state try all its edges again, in a new order if choices are random. -/
def resetChoice (e : GraphEngine) : GraphEngine :=
  match e.frames with
  | [] => e
  | top :: rest =>
    let (choices, random) := arrange top.choices e.random
    { e with frames := { top with choices, tried := 0 } :: rest, random }

instance : Engine GraphEngine where
  Saved := Saved
  forward := forward
  backtrack := backtrack
  isNew e := e.isNew
  isEnd e := e.graph.isEnd e.current
  isIgnored e := e.current ∈ e.ignored
  ignore := ignore
  stateId := current
  occurred e := e.occurred
  path e := e.path
  withPath p e := { e with path := p }
  threads e := e.threads
  withThreads l e := { e with threads := l }
  snapshot? e := some e.snapshot
  restore := restore
  resetChoice := resetChoice
  isTraced _ := true

/-! ## Excursions -/

/-- Takes up to `n` steps and returns the states entered. -/
def walk : Nat → GraphEngine → List StateId × GraphEngine
  | 0, e => ([], e)
  | n + 1, e =>
    match e.forward with
    | (true, e) =>
      let (states, last) := walk n e
      (e.current :: states, last)
    | (false, e) => ([], e)

/-- Steps forward and back again up to `n` times and returns the states entered. -/
def fanUpTo : Nat → GraphEngine → List StateId × GraphEngine
  | 0, e => ([], e)
  | n + 1, e =>
    match e.forward with
    | (true, e) =>
      let (states, last) := fanUpTo n e.backtrack.2
      (e.current :: states, last)
    | (false, e) => ([], e)

/-- Enters every state that the current one has an untried edge to, and returns each time. -/
def fan (e : GraphEngine) : List StateId × GraphEngine :=
  match e.frames with
  | top :: _ => fanUpTo (top.choices.length + 1) e
  | [] => ([], e)

/-- The visited states in ascending order. -/
def visitedStates (e : GraphEngine) : List StateId :=
  (List.range e.graph.size).filter (· ∈ e.visited)

end GraphEngine

end Statewalk
