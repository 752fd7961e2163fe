import Statewalk.Publisher

/-! # Reporters

A listener that keeps a tally, runs the probe timer and hands what happens to its publishers.  It
is meant to be told of every event after all other listeners.
-/

namespace Statewalk

/-- A reporter. -/
structure Reporter (B : Type) where
  /-- The number of the tally that the reporter keeps. -/
  tally : Nat
  publishers : List B := []
  /-- The probe timer is running. -/
  ticking : Bool := false
  /-- The report of the last search that came to its end. -/
  lastReport : Option Report := none

namespace Reporter

variable {E P B : Type}

/-- The state of a reporter at work. -/
abbrev ReporterM (E P B : Type) := EStateM Failure (Reporter B × Run E P)

section Publishing

variable [Publisher E P B]

/-- Hands a publication to publishers in order; those after one that fails do not get it. -/
def publishAll (p : Publication P) : List B → Run E P → Listener.Told (List B) E P
  | [], r => { verdict := .ok (), listener := [], run := r }
  | b :: bs, r =>
    match Publisher.publish p (b, r) with
    | .error f (b, r) => { verdict := .error f, listener := b :: bs, run := r }
    | .ok _ (b, r) =>
      let rest := publishAll p bs r
      { rest with listener := b :: rest.listener }

/-- Hands a publication to all publishers. -/
def publish (p : Publication P) : ReporterM E P B Unit := fun (l, r) =>
  let told := publishAll p l.publishers r
  let l := { l with publishers := told.listener }
  match told.verdict with
  | .ok _ => .ok () (l, told.run)
  | .error f => .error f (l, told.run)

end Publishing

/-- Starts the probe timer if the configuration asks for one; an older one stops after that. -/
def startTimer : ReporterM E P B Unit := do
  let (l, r) ← get
  match r.config.probeInterval with
  | none => return ()
  | some ms =>
    let r := r.record (.timerStarted ms)
    set ({ l with ticking := true }, if l.ticking then r.record .timerStopped else r)

/-- Stops the probe timer if it is running. -/
def stopTimer : ReporterM E P B Unit := do
  let (l, r) ← get
  if l.ticking then set ({ l with ticking := false }, r.record .timerStopped)

section Reporting

variable [Engine E] [Property P]

/-- The report on a run. -/
def collect (tally : Nat) (r : Run E P) : Report :=
  { depth := r.depth
    constraint := r.lastConstraint
    tally := r.tally tally
    errors := r.summaries }

variable [Publisher E P B]

/-- Brings the tally up to date with an event. -/
def keepTally (event : Event) : ReporterM E P B Unit := do
  let (l, _) ← get
  Listener.onRun (Statistics.update l.tally event)

/-- Publishes the results.  The report is kept also if a publisher fails. -/
def finish : ReporterM E P B Unit := fun (l, r) =>
  let report := collect l.tally r
  match publish (.results report) (l, r) with
  | .ok _ (l, r) => .ok () ({ l with lastReport := some report }, r)
  | .error f (l, r) => .error f ({ l with lastReport := some report }, r)

/-- What a reporter does when it is told of an event. -/
def hear : Event → ReporterM E P B Unit
  | .searchStarted => do
    keepTally .searchStarted
    modify fun (l, r) => ({ l with lastReport := none }, r)
    startTimer
    publish .start
  | .stateAdvanced => do
    keepTally .stateAdvanced
    publish .transition
  | .propertyViolated => do
    keepTally .propertyViolated
    let (_, r) ← get
    match r.violations.getLast? with
    | some v => publish (.violation v)
    | none => return ()
  | .searchConstraintHit => do
    keepTally .searchConstraintHit
    let (_, r) ← get
    publish (.constraint (r.lastConstraint.getD ""))
  | .searchProbed => do
    keepTally .searchProbed
    let (l, r) ← get
    publish (.progress (r.tally l.tally))
  | .searchFinished => do
    stopTimer
    keepTally .searchFinished
    finish
  | event => keepTally event

end Reporting

end Reporter

instance {B : Type} : Named (Reporter B) where
  name _ := "reporter"

instance {E P B : Type} [Engine E] [Property P] [Publisher E P B] :
    Listener E P (Reporter B) where
  hear := Reporter.hear

end Statewalk
