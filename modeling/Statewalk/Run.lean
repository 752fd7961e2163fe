import Statewalk.DepthTable
import Statewalk.Engine
import Statewalk.Journal
import Statewalk.Memory
import Statewalk.Property
import Statewalk.Report

/-! # Runs

The state of a search that listeners and properties may look at: the engine, the depth, what was
requested and found so far.  Listeners may also change it, by the operations of this module.

A violation is recorded in one of two ways.  When the search goes on after a violation, the record
is *detached*: it holds copies of the property, path and threads.  When the search ends with it,
the record is *live*: it tells the property, path and threads as they are whenever it is looked
at.
-/

namespace Statewalk

/-- What a record of a violation rests on. -/
inductive Evidence (P : Type) where
  /-- Copies made when the violation was found. -/
  | detached (property : P) (path : Path) (threads : ThreadList)
  /-- The property itself, and the engine's path and threads. -/
  | live (watched : Watched P)

/-- The record of a violation. -/
structure Violation (P : Type) where
  id : Nat
  evidence : Evidence P

/-- The answer to the last question whether a state is new. -/
structure Query where
  state : StateId
  depth : Nat
  answer : Bool
deriving DecidableEq, Repr

/-- The state of a search that listeners and properties may look at. -/
structure Run (E P : Type) where
  engine : E
  config : Config
  depth : Nat := 0
  /-- The search stops before its next iteration. -/
  done : Bool := false
  backtrackRequested : Bool := false
  probeRequested : Bool := false
  /-- The last step recorded a violation, which is then the last one. -/
  atViolation : Bool := false
  violations : List (Violation P) := []
  lastConstraint : Option String := none
  /-- The depths at which states were met, kept when matching by least depth. -/
  depths : DepthTable := {}
  /-- States are matched; otherwise every state counts as new. -/
  matching : Bool := true
  /-- The last answer on newness since the search moved the engine. -/
  lastQuery : Option Query := none
  memory : Memory
  /-- The properties that are checked, in order. -/
  properties : List (Watched P) := []
  /-- Properties that are known to the run and no longer, or never, checked. -/
  retired : List (Watched P) := []
  tallies : List Tally := []
  journal : Journal := {}

/-- Operations on a run.  What was done before a failure stays done. -/
abbrev RunM (E P : Type) := EStateM Failure (Run E P)

namespace Run

variable {E P : Type}

/-- Adds an entry to the journal. -/
def record (e : Entry) (r : Run E P) : Run E P :=
  { r with journal := r.journal.record e }

/-! ## Requests -/

/-- Lets the search stop before its next iteration. -/
def terminate (r : Run E P) : Run E P :=
  { r with done := true }.record .terminated

/-- Asks the strategy to step back. -/
def requestBacktrack (r : Run E P) : Run E P :=
  { r with backtrackRequested := true }

/-- Reads the request to step back and takes it away. -/
def takeBacktrackRequest (r : Run E P) : Bool × Run E P :=
  (r.backtrackRequested, { r with backtrackRequested := false })

/-- Asks for a progress event. -/
def requestProbe (r : Run E P) : Run E P :=
  { r with probeRequested := true }

/-- Reads the request for a progress event and takes it away. -/
def takeProbeRequest (r : Run E P) : Bool × Run E P :=
  (r.probeRequested, { r with probeRequested := false })

/-- Switches the matching of states on or off. -/
def setMatching (enabled : Bool) (r : Run E P) : Run E P :=
  { r with matching := enabled, lastQuery := none }

/-- Sets the depth limit, whatever it is. -/
def setDepthLimit (limit : Nat) (r : Run E P) : Run E P :=
  { r with config := { r.config with depthLimit := limit } }

/-- Applies a configuration. -/
def configure (c : Config) (r : Run E P) : Run E P :=
  { r with config := c, memory := r.memory.configure c }.record (.configured c)

/-! ## Moves of the engine -/

section Moves

variable [Engine E]

/-- The entry for a transition that a traced engine took. -/
def crossing? (before after : E) : Option Entry :=
  if Engine.isTraced after then
    (Engine.path after).last?.map fun t =>
      .crossed (Engine.stateId before) t (Engine.isNew after)
  else none

/-- Steps the engine forward. -/
def stepForward (r : Run E P) : Bool × Run E P :=
  let (done, engine) := Engine.forward r.engine
  let after := { r with engine }.record (.moved .forward r.depth done)
  match done, crossing? r.engine engine with
  | true, some e => (true, after.record e)
  | done, _ => (done, after)

/-- Steps the engine back. -/
def stepBack (r : Run E P) : Bool × Run E P :=
  let (done, engine) := Engine.backtrack r.engine
  (done, { r with engine }.record (.moved .backtrack r.depth done))

/-- Lets the engine return to a snapshot. -/
def stepTo (s : Snapshot (Engine.Saved E)) (r : Run E P) : Bool × Run E P :=
  let (done, engine) := Engine.restore s r.engine
  (done, { r with engine }.record (.moved .restore r.depth done))

/-- The search moved the engine: answers on newness no longer hold. -/
def forgetQuery (r : Run E P) : Run E P :=
  { r with lastQuery := none }

/-- Marks the current state as ignored, or takes the mark away. -/
def ignore (mark : Bool) (r : Run E P) : Run E P :=
  { r with engine := Engine.ignore mark r.engine }

/-! ## Newness -/

/-- The last answer, if it was about the current state at the current depth. -/
def cachedAnswer? (r : Run E P) : Option Bool :=
  match r.lastQuery with
  | some q =>
    if q.state = Engine.stateId r.engine ∧ q.depth = r.depth then some q.answer else none
  | none => none

/-- Records the current depth for the current state. -/
def recordDepth (r : Run E P) : Except Failure DepthTable :=
  (r.depths.set (Engine.stateId r.engine) r.depth).mapError .fault

/-- Whether the current state is new, and the depths after the question.  When matching by least
    depth, a known state that was only met deeper counts as new, and its depth is lowered. -/
def judge (r : Run E P) : Except Failure (Bool × DepthTable) :=
  if r.config.matchByMinDepth then
    if Engine.isNew r.engine then
      r.recordDepth.map fun depths => (true, depths)
    else
      match r.depths.get (Engine.stateId r.engine) with
      | .error f => .error f
      | .ok d =>
        if r.depth < d then r.recordDepth.map fun depths => (true, depths)
        else .ok (false, r.depths)
  else .ok (Engine.isNew r.engine, r.depths)

/-- Whether the current state is new.  The answer stays the same until the search moves the
    engine. -/
def isNew : RunM E P Bool := do
  let r ← get
  if r.matching then
    match r.cachedAnswer? with
    | some answer => return answer
    | none =>
      match r.judge with
      | .error f => throw f
      | .ok (answer, depths) =>
        set { r with
          depths
          lastQuery := some { state := Engine.stateId r.engine, depth := r.depth, answer } }
        return answer
  else return true

end Moves

/-! ## Depth -/

/-- The search went one level down. -/
def descend : RunM E P Unit := do
  let r ← get
  match addWords r.depth 1 with
  | .ok d => set { r with depth := d }
  | .error f => throw (.fault f)

/-- The search went one level up. -/
def ascend : RunM E P Unit := do
  let r ← get
  if r.depth = 0 then throw (.fault .aboveRoot)
  else set { r with depth := r.depth - 1 }

theorem descend_apply (r : Run E P) : descend r =
    match addWords r.depth 1 with
    | .ok d => .ok () { r with depth := d }
    | .error f => .error (.fault f) r := by
  show (match addWords r.depth 1 with
    | .ok d => set { r with depth := d }
    | .error f => throw (.fault f) : RunM E P Unit) r = _
  cases addWords r.depth 1 <;> rfl

theorem ascend_apply (r : Run E P) : ascend r =
    if r.depth = 0 then .error (.fault .aboveRoot) r else .ok () { r with depth := r.depth - 1 } := by
  show (if r.depth = 0 then throw (.fault .aboveRoot) else set { r with depth := r.depth - 1 } :
    RunM E P Unit) r = _
  split <;> rfl

/-! ## Memory -/

/-- Asks for memory to be given back. -/
def reclaim (r : Run E P) : Run E P :=
  let memory := r.memory.reclaim
  let after := { r with memory }
  if memory.isProcess then after.record (.reclaimed memory.reclaims) else after

/-- Asks how much memory is left. -/
def availableMemory (r : Run E P) : Option Nat × Run E P :=
  let (amount, memory) := r.memory.available
  (amount, { r with memory })

/-- There is enough memory left, if need be after some was given back. -/
def hasMemory (r : Run E P) : Bool × Run E P :=
  let minFree := r.config.minFreeMemory.bytes
  match r.availableMemory with
  | (none, r) => (true, r)
  | (some amount, r) =>
    if amount < minFree then
      match (r.record (.memoryLow amount minFree)).reclaim.availableMemory with
      | (some amount, r) => (minFree ≤ amount, r)
      | (none, r) => (true, r)
    else (true, r)

/-- What is kept when memory is measured or given back, and when that is noted, is kept by the question
    whether there is enough. -/
theorem kept_hasMemory {J : Run E P → Prop} (memory : ∀ r m, J r → J { r with memory := m })
    (low : ∀ r amount limit, J r → J (r.record (.memoryLow amount limit)))
    (reclaimed : ∀ r count, J r → J (r.record (.reclaimed count))) {r : Run E P} (hr : J r) :
    J r.hasMemory.2 := by
  have measured (r : Run E P) (hr : J r) : J r.availableMemory.2 := memory r _ hr
  have given (r : Run E P) (hr : J r) : J r.reclaim := by
    unfold reclaim
    simp only
    split
    · exact reclaimed _ _ (memory r _ hr)
    · exact memory r _ hr
  have asked := measured r hr
  rcases available : r.availableMemory with ⟨_ | amount, after⟩
  · rw [available] at asked
    simpa only [hasMemory, available] using asked
  · rw [available] at asked
    simp only [hasMemory, available]
    split
    · -- Memory is low: that is noted, some is given back, and the question is put once more.
      have again := measured _ (given _ (low after amount r.config.minFreeMemory.bytes asked))
      split
      all_goals
        rename_i second
        rw [second] at again
        exact again
    · exact asked

/-! ## Properties and violations -/

/-- The key of the next property. -/
def nextKey (r : Run E P) : Nat :=
  r.properties.length + r.retired.length

/-- Adds a property to those that are checked. -/
def watch (p : P) (r : Run E P) : Run E P :=
  { r with properties := r.properties ++ [{ key := r.nextKey, property := p }] }

/-- The state of a property as it is now. -/
def current (w : Watched P) (r : Run E P) : P :=
  match (r.properties ++ r.retired).find? (·.key = w.key) with
  | some now => now.property
  | none => w.property

/-- What a violation rests on when it is found now. -/
def evidence [Engine E] (w : Watched P) (r : Run E P) : Evidence P :=
  if r.config.continueOnViolation then
    .detached w.property (Engine.path r.engine) (Engine.threads r.engine)
  else .live w

/-- Records a violation of a property.  Unless the search goes on after violations, it is done. -/
def violate [Engine E] [Property P] (w : Watched P) (r : Run E P) : Run E P :=
  let v : Violation P := { id := r.violations.length + 1, evidence := r.evidence w }
  { r with
    done := r.done || !r.config.continueOnViolation
    violations := r.violations ++ [v]
    atViolation := true }.record (.violated v.id (Named.name w.property) r.depth)

/-- Records a violation of a property that is not among those checked. -/
def raise [Engine E] [Property P] (p : P) (r : Run E P) : Run E P :=
  let w : Watched P := { key := r.nextKey, property := p }
  ({ r with retired := r.retired ++ [w] } : Run E P).violate w

/-- Lets all checked properties forget what they gathered. -/
def resetProperties [Property P] (r : Run E P) : Run E P :=
  { r with
    properties := r.properties.map fun w => { w with property := Property.reset w.property } }

/-- The violation recorded by the last step. -/
def currentViolation? (r : Run E P) : Option (Violation P) :=
  if r.atViolation then r.violations.getLast? else none

/-- The current violation ends the search; if the search goes on, it is left by stepping back. -/
def endsAtViolation (r : Run E P) : Bool × Run E P :=
  if r.atViolation then
    if r.done then (true, r) else (false, r.requestBacktrack)
  else (false, r)

/-- What is known of a violation now. -/
def summary [Engine E] [Property P] (r : Run E P) (v : Violation P) : Summary :=
  match v.evidence with
  | .detached p path threads =>
    { id := v.id, property := Named.name p, message := Property.message p, path, threads }
  | .live w =>
    let p := r.current w
    { id := v.id
      property := Named.name p
      message := Property.message p
      path := Engine.path r.engine
      threads := Engine.threads r.engine }

/-- What is known of all violations now. -/
def summaries [Engine E] [Property P] (r : Run E P) : List Summary :=
  r.violations.map r.summary

/-! ## Tallies -/

/-- Adds a tally; its number is the number of tallies before it. -/
def addTally (r : Run E P) : Nat × Run E P :=
  (r.tallies.length, { r with tallies := r.tallies ++ [{}] })

/-- The tally with a number. -/
def tally (i : Nat) (r : Run E P) : Tally :=
  r.tallies[i]?.getD {}

/-- Changes the tally with a number. -/
def modifyTally (i : Nat) (f : Tally → Tally) (r : Run E P) : Run E P :=
  { r with tallies := r.tallies.modify i f }

end Run

/-- A property that can be checked on the run of an engine. -/
class Checkable (E P : Type) extends Property P where
  /-- Whether the property holds now, and the property after the check. -/
  check : Run E P → P → Bool × P

namespace Run

variable {E P : Type} [Engine E] [Checkable E P]

/-- Checks properties in order up to the first that does not hold. -/
def checkUntil (r : Run E P) : List (Watched P) → List (Watched P) × Option (Watched P)
  | [] => ([], none)
  | w :: ws =>
    let (holds, p) := Checkable.check r w.property
    let w := { w with property := p }
    if holds then
      let (ws, violated) := checkUntil r ws
      (w :: ws, violated)
    else (w :: ws, some w)

/-- Checks the properties; the first that does not hold is recorded. -/
def checkProperties (r : Run E P) : Bool × Run E P :=
  let (properties, violated) := checkUntil r r.properties
  let r := { r with properties }
  match violated with
  | some w => (true, r.violate w)
  | none => (false, r)

end Run

end Statewalk
