import Statewalk.Frontier
import Statewalk.Heuristic
import Statewalk.Strategy.Loop

/-! # Best-first search

Exploration by snapshots.  All successors of a state are generated by stepping forward, queueing
the successor and stepping back again; then the best queued state is restored and becomes the next
to be expanded.
-/

namespace Statewalk

/-- A queued state. -/
structure Queued (E : Type) [Engine E] where
  snapshot : Snapshot (Engine.Saved E)
  state : StateId

/-- A best-first search: its heuristic, its queue, and what it counted since it was started. -/
structure BestFirst (H E : Type) [Engine E] where
  heuristic : H
  frontier : Frontier (Queued E) := {}
  /-- Number of the next state that is offered. -/
  offered : Nat := 0
  /-- States that were queued. -/
  stored : Nat := 0

/-- A best-first search at work. -/
structure Expedition (H E P L : Type) [Engine E] where
  strategy : BestFirst H E
  search : Search E P L

/-- Operations of a best-first search.  What was done before a failure stays done. -/
abbrev ExpeditionM (H E P L : Type) [Engine E] := EStateM Failure (Expedition H E P L)

namespace BestFirst

variable {H E P L : Type} [Engine E]

/-- The name under which the strategy fails. -/
def name : String := "heuristic"

/-- An operation on the search. -/
def onSearch {α : Type} (x : SearchM E P L α) : ExpeditionM H E P L α := fun s =>
  match x s.search with
  | .ok a t => .ok a { s with search := t }
  | .error f t => .error f { s with search := t }

/-- A look at the run. -/
def look {α : Type} (f : Run E P → α) : ExpeditionM H E P L α := fun s =>
  .ok (f s.search.run) s

/-- The queue is at its limit. -/
def isFull (s : Expedition H E P L) : Bool :=
  s.strategy.frontier.isFull s.search.run.config.queueLimit

/-- Offers the current state to the queue; `false` if it lost against a full queue. -/
def offerCurrent [Heuristic H E P] : ExpeditionM H E P L Bool := do
  let s ← get
  match Engine.snapshot? s.search.run.engine with
  | none => throw (.unsupported name)
  | some snapshot =>
    let (priority, heuristic) := Heuristic.priority s.search.run s.strategy.heuristic
    match priority with
    | .error f => throw (.fault f)
    | .ok priority =>
      let strategy := { s.strategy with heuristic, offered := s.strategy.offered + 1 }
      let key : Key := { priority, number := s.strategy.offered }
      let queued : Queued E := { snapshot, state := Engine.stateId s.search.run.engine }
      match strategy.frontier.offer? s.search.run.config.queueLimit key queued with
      | some frontier =>
        set { s with strategy := { strategy with frontier, stored := strategy.stored + 1 } }
        return true
      | none =>
        set { s with strategy }
        return false

section Exploration

variable [Checkable E P] [Listener E P L] [Heuristic H E P]

/-- Queues the current state and announces it if it was stored. -/
def store : ExpeditionM H E P L Unit := do
  if ← offerCurrent then onSearch (Search.announce .stateStored)

/-- Queues the current state; that the queue is at its limit is announced first. -/
def storeWithinLimit : ExpeditionM H E P L Unit := do
  let s ← get
  if isFull s then
    onSearch (Search.announceConstraint
      ("queue limit reached: " ++ toString s.strategy.frontier.size))
  store

/-- Looks at a state that was just entered and has no violation: new states are queued unless they
    lie at the depth limit; known ones only if the search is sensitive to paths. -/
def consider : ExpeditionM H E P L Unit := do
  let isNew ← onSearch Search.isNew
  let limit ← look (·.config.depthLimit)
  let depth ← look (·.depth)
  if isNew && limit ≤ depth then onSearch (Search.announceDepthLimit limit)
  else if isNew || (← look (·.config.pathSensitive)) then storeWithinLimit

/-- Deals with a state that was just entered; tells whether its violation ends the search. -/
def receive : ExpeditionM H E P L Bool := do
  if ← look (·.atViolation) then
    let _ ← onSearch Search.isNew
    onSearch Search.announceViolation
    if ← onSearch (Search.update Run.endsAtViolation) then return true
    else
      let _ ← onSearch (Search.update Run.takeBacktrackRequest)
      return false
  else
    let engine ← look (·.engine)
    if Engine.isEnd engine || Engine.isIgnored engine then return false
    else
      consider
      return false

/-- Looks at the memory limit and returns to the state that is being expanded. -/
def leave : ExpeditionM H E P L (Turn Unit (Option StopReason)) := do
  if ← onSearch (Search.update Run.hasMemory) then
    if ← onSearch Search.backtrack then
      onSearch (Search.onRun Run.ascend)
      onSearch (Search.announce .stateBacktracked)
      return .again ()
    else return .stop (some .exhausted)
  else
    onSearch Search.announceMemoryLimit
    return .stop (some .constraintHit)

/-- Generates one successor. -/
def generate (_ : Unit) : ExpeditionM H E P L (Turn Unit (Option StopReason)) := do
  onSearch Search.pollProbe
  if ← onSearch Search.forward then
    onSearch (Search.onRun Run.descend)
    onSearch (Search.announce .stateAdvanced)
    if ← receive then return .stop (some .propertyViolated)
    else leave
  else
    onSearch (Search.announce .stateProcessed)
    return .stop none

/-- Generates all successors of the current state; gives a reason if the search is to stop. -/
def expand (budget : Nat) : ExpeditionM H E P L (Option StopReason) :=
  loop (·.search.run.done) none generate budget ()

/-- Expands the current state and tells how to go on. -/
def expandAndGoOn (budget : Nat) : ExpeditionM H E P L (Turn Unit StopReason) := do
  match ← expand budget with
  | some reason => return .stop reason
  | none => return .again ()

/-- Takes the best state out of the queue, returns to it and expands it. -/
def expandBest (budget : Nat) (_ : Unit) : ExpeditionM H E P L (Turn Unit StopReason) := do
  let s ← get
  match s.strategy.frontier.pop? with
  | none => return .stop .exhausted
  | some (best, frontier) =>
    set { s with strategy := { s.strategy with frontier } }
    onSearch (Search.change (Run.record
      (.expanding (Named.name s.strategy.heuristic) best.state frontier.size)))
    onSearch (Search.restore best.snapshot name)
    onSearch (Search.announce .stateRestored)
    expandAndGoOn budget

/-- Empties the queue and the counters. -/
def clear (b : BestFirst H E) : BestFirst H E :=
  { heuristic := b.heuristic }

/-- Expands the start, which is queued and taken out again at once, and then the best queued state
    time and again. -/
def explore (budget : Nat) : ExpeditionM H E P L StopReason := do
  modify fun s => { s with strategy := s.strategy.clear }
  onSearch (Search.change fun r => { r with depth := Engine.pathLength r.engine })
  onSearch (Search.announce .searchStarted)
  store
  modify fun s =>
    match s.strategy.frontier.pop? with
    | some (_, frontier) => { s with strategy := { s.strategy with frontier } }
    | none => s
  let reason ← match ← expand budget with
    | some reason => pure reason
    | none => loop (·.search.run.done) .terminated (expandBest budget) budget ()
  onSearch (Search.announce .searchFinished)
  return reason

/-- Runs a best-first search. -/
def run (budget : Nat) : ExpeditionM H E P L Outcome := do
  onSearch (Search.launch name)
  let reason ← explore budget
  onSearch (Search.conclude reason)

end Exploration

end BestFirst

end Statewalk
