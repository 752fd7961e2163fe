import Statewalk.Session.Plan

/-! # Sessions

A search that is driven step by step from outside, with the things that are kept between steps:
snapshots, strategies under names, and the numbers of statistics listeners and sinks.
-/

namespace Statewalk

/-- A strategy kept under a name. -/
structure Kept where
  plan : Plan
  /-- The strategy's counters are told. -/
  counted : Bool

/-- A search that is driven step by step. -/
structure Session where
  search : Plan.Subjects
  snapshots : List (Snapshot Stage.Saved) := []
  slots : List (String × Kept) := []
  /-- The tallies of the statistics listeners, in the order in which these were added. -/
  statistics : List Nat := []
  /-- The number of sinks that were handed out. -/
  sinks : Nat := 0

/-- Operations on a session.  What was done before a failure stays done. -/
abbrev SessionM := EStateM Failure Session

/-- A listener to be added. -/
inductive Guest where
  | statistics
  | idle (name : String)
  | rules (l : RuleListener Subject)

/-- A publisher to be added. -/
inductive OutletSpec where
  | log
  | json (fault : Option SinkFault)
  | record (b : RecordPublisher)

/-- A reporter to be installed. -/
inductive ReporterSpec where
  | rules (l : RuleListener Subject)
  /-- A reporter, which may share the tally of a statistics listener. -/
  | publishing (shared : Option Nat) (outlets : List OutletSpec)

namespace Session

/-- An operation on the search. -/
def onSearch {α : Type} (x : SearchM Stage Subject Observer α) : SessionM α := fun s =>
  match x s.search with
  | .ok a t => .ok a { s with search := t }
  | .error f t => .error f { s with search := t }

/-- A change of the search that gives a result. -/
def update {α : Type} (f : Plan.Subjects → α × Plan.Subjects) : SessionM α := fun s =>
  let (a, t) := f s.search
  .ok a { s with search := t }

/-- A look at the search. -/
def look {α : Type} (f : Plan.Subjects → α) : SessionM α :=
  return f (← get).search

/-- Performs an action on the run. -/
def perform (a : Action Subject) : SessionM Json :=
  onSearch (Search.onRun a.perform)

/-- A session with an engine, a configuration and maybe a memory source of its own. -/
def start (e : Stage) (c : Config) (m : Option Memory) : Except Failure Session :=
  (Search.ofEngine e c).map fun s =>
    { search := match m with
        | some m => s.withMemory m
        | none => s }

/-! ## Listeners, properties, reporters -/

/-- A new tally of the run. -/
def newTally : SessionM Nat :=
  onSearch (Search.update Run.addTally)

/-- The listener that is added for a guest. -/
def enroll : Guest → SessionM Observer
  | .statistics => do
    let tally ← newTally
    modify fun s => { s with statistics := s.statistics ++ [tally] }
    return .statistics { tally }
  | .idle name => return .idle name
  | .rules l => return .rules l

/-- Adds a listener; answers how many there are. -/
def addListener (g : Guest) : SessionM Nat := do
  let l ← enroll g
  update fun s => ((), s.addListener l)
  look (·.listeners.length)

/-- Adds a property; answers how many there are. -/
def addProperty (p : Subject) : SessionM Nat := do
  update fun s => ((), s.addProperty p)
  look (·.run.properties.length)

/-- The publisher for its description; sinks are numbered in order. -/
def openOutlet : OutletSpec → SessionM Outlet
  | .log => return .log {}
  | .json fault => do
    let s ← get
    set { s with sinks := s.sinks + 1 }
    return .json { sink := s.sinks, fault }
  | .record b => return .record b

/-- The tally of the statistics listener with a number, or a new one. -/
def sharedTally : Option Nat → SessionM Nat
  | none => newTally
  | some i => do
    match (← get).statistics[i]? with
    | some tally => return tally
    | none => newTally

/-- The listener that is installed as a reporter. -/
def openReporter : ReporterSpec → SessionM Observer
  | .rules l => return .rules l
  | .publishing shared outlets => do
    let tally ← sharedTally shared
    let publishers ← outlets.mapM openOutlet
    return .reporter { tally, publishers }

/-- Lets go of a reporter; its probe timer stops if it is running. -/
def dismiss (o : Option Observer) (r : Run Stage Subject) : Run Stage Subject :=
  match o with
  | some (.reporter l) => if l.ticking then r.record .timerStopped else r
  | _ => r

/-- Installs a reporter in place of the one before. -/
def setReporter (spec : ReporterSpec) : SessionM Unit := do
  let l ← openReporter spec
  update fun s => ((), { s with run := dismiss s.reporter s.run, reporter := some l })

/-! ## Steps -/

/-- The result of a run: how it ended and what the strategy counted. -/
structure RunReply where
  verdict : Except Failure Outcome
  counters : Plan.Counters

/-- Runs a strategy.  One that is kept under the name `slot` is used in place of `plan`. -/
def run (budget : Nat) (slot : Option String) (plan : Kept) : SessionM RunReply := do
  let s ← get
  let plan := (slot.bind fun name => s.slots.lookup name).getD plan
  let before := s.search.run.journal.length
  let result := plan.plan.conduct budget s.search
  let after : Kept := { plan with plan := result.plan }
  set { s with
    search := result.search
    slots := match slot with
      | some name => (name, after) :: s.slots.filter (·.1 ≠ name)
      | none => s.slots }
  let entries := result.search.run.journal.entriesFrom before
  return {
    verdict := result.verdict
    counters := if plan.counted then result.plan.counters entries else .none }

/-- The plan for a kind of strategy, or for the configured one. -/
def planFor (kind : Option StrategyKind) : SessionM Kept := do
  let c ← look (·.run.config)
  return { plan := .ofKind c (kind.getD c.strategy), counted := false }

/-- Keeps a snapshot; answers its path length, if the engine has snapshots. -/
def takeSnapshot : SessionM (Option Nat) := do
  let s ← get
  match Engine.snapshot? s.search.run.engine with
  | none => return none
  | some (x : Snapshot Stage.Saved) =>
    set { s with snapshots := s.snapshots ++ [x] }
    return some x.pathLength

/-- Returns to a snapshot that was kept; one that was not is refused by every engine. -/
def restore (index : Nat) (strategy : String) : SessionM Unit := do
  match (← get).snapshots[index]? with
  | some (x : Snapshot Stage.Saved) => onSearch (Search.restore x strategy)
  | none => onSearch (Search.restore { pathLength := 0, payload := none } strategy)

/-- Asks to return to a snapshot that some other kind of engine made. -/
def restoreForeign (length : Nat) (strategy : String) : SessionM Unit :=
  onSearch (Search.restore { pathLength := length, payload := none } strategy)

/-- Announces an event; the details are those of a limit. -/
def notify (event : Event) (details : String) : SessionM Unit :=
  match event with
  | .searchConstraintHit => onSearch (Search.announceConstraint details)
  | .propertyViolated => onSearch Search.announceViolation
  | event => onSearch (Search.announce event)

/-! ## Looking at a session -/

/-- The tally of the statistics listener with a number. -/
def statisticsTally (s : Session) (i : Nat) : Option Tally :=
  s.statistics[i]?.map s.search.run.tally

/-- The tally of the reporter and its last report, if the session has a publishing reporter. -/
def reporterState? (s : Session) : Option (Tally × Option Report) :=
  match s.search.reporter with
  | some (.reporter l) => some (s.search.run.tally l.tally, l.lastReport)
  | _ => none

/-- The calls to the memory source that the session was given, in order; the memory of the process
    is not given. -/
def memoryCalls (s : Session) : List MemoryCall :=
  let m := s.search.run.memory
  if m.isProcess then [] else m.history

/-- The names and messages of the checked properties. -/
def propertyStates (s : Session) : List (String × Option String) :=
  s.search.run.properties.map fun w => (w.property.name, w.property.message)

end Session

end Statewalk
