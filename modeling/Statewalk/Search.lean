import Statewalk.Listener

/-! # Searches

A run with its listeners and its reporter, and the steps that strategies are made of.  Every event
is announced to the listeners in order and then to the reporter.
-/

namespace Statewalk

/-- Why a strategy stopped. -/
inductive StopReason where
  /-- There was nothing left to explore. -/
  | exhausted
  /-- A violation ended the search. -/
  | propertyViolated
  /-- The memory limit ended the search. -/
  | constraintHit
  /-- Somebody asked the search to stop. -/
  | terminated
  | endStateReached
  /-- The engine could not go on. -/
  | deadEnd
  /-- All walks were made. -/
  | pathLimitReached
deriving DecidableEq, Repr

/-- The result of a run. -/
structure Outcome where
  reason : StopReason
  depth : Nat
  errors : Nat
  lastConstraint : Option String
deriving DecidableEq, Repr

/-- A run with its listeners and its reporter. -/
structure Search (E P L : Type) where
  run : Run E P
  listeners : List L := []
  /-- Told of every event after all listeners. -/
  reporter : Option L := none

/-- Operations on a search.  What was done before a failure stays done. -/
abbrev SearchM (E P L : Type) := EStateM Failure (Search E P L)

namespace Search

variable {E P L : Type}

/-- A search with a valid configuration. -/
def ofEngine (e : E) (c : Config) : Except Failure (Search E P L) :=
  match c.validate with
  | .error err => .error (.config err)
  | .ok _ =>
    .ok { run := Run.configure c { engine := e, config := c, memory := .ofCeiling none } }

/-- Replaces the memory source. -/
def withMemory (m : Memory) (s : Search E P L) : Search E P L :=
  { s with run := { s.run with memory := m.configure s.run.config } }

/-- Applies a new configuration if it is valid. -/
def reconfigure (c : Config) : SearchM E P L Unit := do
  match c.validate with
  | .error err => throw (.config err)
  | .ok _ => modify fun s => { s with run := s.run.configure c }

/-! ## Listeners and properties -/

section Membership

variable [Named L] [Property P]

/-- Adds a listener after the others. -/
def addListener (l : L) (s : Search E P L) : Search E P L :=
  { s with
    run := s.run.record (.enlisted (Named.name l))
    listeners := s.listeners ++ [l] }

/-- There is a listener with this name. -/
def hasListener (name : String) (s : Search E P L) : Bool :=
  s.listeners.any (Named.name · = name)

/-- Removes the first listener with a name. -/
def removeListener (name : String) (s : Search E P L) : Bool × Search E P L :=
  (s.hasListener name, { s with listeners := s.listeners.eraseP (Named.name · = name) })

omit [Named L] in
/-- Adds a property after the others. -/
def addProperty (p : P) (s : Search E P L) : Search E P L :=
  { s with run := s.run.watch p }

omit [Named L] in
/-- Removes the first property with a name from those that are checked. -/
def removeProperty (name : String) (s : Search E P L) : Bool × Search E P L :=
  let hasName : Watched P → Bool := fun w => Named.name w.property = name
  match s.run.properties.find? hasName with
  | some w =>
    (true, { s with run := { s.run with
      properties := s.run.properties.eraseP hasName
      retired := s.run.retired ++ [w] } })
  | none => (false, s)

end Membership

/-! ## Operations on the run -/

/-- An operation on the run that may fail. -/
def onRun {α : Type} (x : RunM E P α) : SearchM E P L α := fun s =>
  match x s.run with
  | .ok a r => .ok a { s with run := r }
  | .error f r => .error f { s with run := r }

/-- An operation on the run that gives a result. -/
def update {α : Type} (f : Run E P → α × Run E P) : SearchM E P L α := fun s =>
  let (a, r) := f s.run
  .ok a { s with run := r }

/-- A change of the run. -/
def change (f : Run E P → Run E P) : SearchM E P L Unit := fun s =>
  .ok () { s with run := f s.run }

/-- A look at the run. -/
def look {α : Type} (f : Run E P → α) : SearchM E P L α := fun s =>
  .ok (f s.run) s

section Laws

variable {α : Type}

@[simp] theorem update_apply (f : Run E P → α × Run E P) (s : Search E P L) :
    update f s = .ok (f s.run).1 { s with run := (f s.run).2 } := rfl

@[simp] theorem change_apply (f : Run E P → Run E P) (s : Search E P L) :
    change f s = .ok () { s with run := f s.run } := rfl

@[simp] theorem look_apply (f : Run E P → α) (s : Search E P L) :
    look f s = .ok (f s.run) s := rfl

theorem onRun_eq_ok {x : RunM E P α} {a : α} {s t : Search E P L} :
    onRun x s = .ok a t ↔ ∃ r, x s.run = .ok a r ∧ t = { s with run := r } := by
  unfold onRun
  cases x s.run with
  | ok b r =>
    constructor
    · rintro ⟨⟩
      exact ⟨r, rfl, rfl⟩
    · rintro ⟨_, ⟨⟩, rfl⟩
      rfl
  | error f r => simp

end Laws

/-! ## Events -/

section Events

variable [Engine E] [Listener E P L]

/-- The state of the search as it is announced with an event. -/
def bulletin (event : Event) (s : Search E P L) : Bulletin :=
  { event
    depth := s.run.depth
    state := Engine.stateId s.run.engine
    pathLength := Engine.pathLength s.run.engine
    depthLimit := s.run.config.depthLimit
    properties := s.run.properties.length
    listeners := s.listeners.length
    violations := s.run.violations.length
    constraint := s.run.lastConstraint }

/-- Tells the listeners of an event, then the reporter. -/
def broadcast (event : Event) : SearchM E P L Unit := fun s =>
  let told := Listener.tellAll event s.listeners s.run
  let s := { s with listeners := told.listener, run := told.run }
  match told.verdict with
  | .error f => .error f s
  | .ok _ =>
    match s.reporter with
    | none => .ok () s
    | some l =>
      let told := Listener.tell event l s.run
      let s := { s with reporter := some told.listener, run := told.run }
      match told.verdict with
      | .error f => .error f s
      | .ok _ => .ok () s

/-- Announces an event. -/
def announce (event : Event) : SearchM E P L Unit := do
  modify fun s => { s with run := s.run.record (.announced (s.bulletin event)) }
  broadcast event

/-- Announces that a limit was hit. -/
def announceConstraint (details : String) : SearchM E P L Unit := do
  change fun r => { r with lastConstraint := some details }
  announce .searchConstraintHit

/-- Announces a violation.  If the search goes on after violations, the properties forget what
    they gathered once everybody was told. -/
def announceViolation [Property P] : SearchM E P L Unit := do
  announce .propertyViolated
  if ← look (·.config.continueOnViolation) then change Run.resetProperties

/-- Announces progress if somebody asked for it. -/
def pollProbe : SearchM E P L Unit := do
  if ← update Run.takeProbeRequest then announce .searchProbed

end Events

/-! ## Moves -/

section Moves

variable [Engine E]

/-- Steps the engine forward and checks the properties, also when the engine could not move. -/
def forward [Checkable E P] : SearchM E P L Bool := do
  change fun r => { r with atViolation := false, lastQuery := none }
  let advanced ← update Run.stepForward
  let _ ← update Run.checkProperties
  return advanced

/-- Steps the engine back. -/
def backtrack : SearchM E P L Bool := do
  change Run.forgetQuery
  update Run.stepBack

/-- Returns to a snapshot and takes over its depth. -/
def restore (s : Snapshot (Engine.Saved E)) (strategy : String) : SearchM E P L Unit := do
  change fun r => { r with lastQuery := none, atViolation := false }
  if ← update (Run.stepTo s) then change fun r => { r with depth := s.pathLength }
  else throw (.restoreFailed strategy)

/-- Whether the current state is new. -/
def isNew : SearchM E P L Bool :=
  onRun Run.isNew

end Moves

/-! ## Runs of a strategy -/

/-- The start of a run. -/
def launch (strategy : String) : SearchM E P L Unit := do
  if ← look (·.properties.isEmpty) then change (Run.record .unguarded)
  change (Run.record (.launched strategy))
  change fun r => { r with matching := true }

/-- The end of a run. -/
def conclude (reason : StopReason) : SearchM E P L Outcome := do
  change fun r => { r with done := true }
  look fun r =>
    { reason, depth := r.depth, errors := r.violations.length, lastConstraint := r.lastConstraint }

/-- Runs a strategy to its end. -/
def conduct (strategy : String) (explore : SearchM E P L StopReason) : SearchM E P L Outcome := do
  launch strategy
  conclude (← explore)

end Search

end Statewalk
