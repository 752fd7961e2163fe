import Statewalk.Proofs.Conservation
import Statewalk.Proofs.Trails
import Statewalk.Strategy.RandomRestart
import Statewalk.Strategy.Replay
import Statewalk.Strategy.Simulation

/-! # What every strategy abides by

In one iteration a strategy steps forward at most once, and goes back at most once, be it by stepping
back or by returning to a snapshot.  It goes back, and checks the properties again, only where the last
step found no violation, or where the search goes on after violations.  Every move is counted and then
announced before anything else is done.  `Course` lists what there is to prove of the things that a search
does for a family of predicates that is indexed by where the search is with its move, and by what is still
open to an iteration.  All strategies abide by it, whatever their listeners do.  `Discipline` is the case
in which it does not matter how far a move is.
-/

namespace Statewalk

/-- What is still open to an iteration: to step forward, and to go back.  It is calm once it is known
    that the last step found no violation that ends the search. -/
structure Scope where
  forward : Bool
  back : Bool
  calm : Bool
deriving DecidableEq

namespace Scope

/-- Nothing is open. -/
def none : Scope := ⟨false, false, false⟩

/-- An iteration begins. -/
def full : Scope := ⟨true, true, true⟩

/-- No more is open than before. -/
def Within (q p : Scope) : Prop :=
  (q.forward = true → p.forward = true) ∧ (q.back = true → p.back = true) ∧ (q.calm = true → p.calm = true)

instance (q p : Scope) : Decidable (q.Within p) :=
  inferInstanceAs (Decidable (_ ∧ _ ∧ _))

theorem none_within (p : Scope) : none.Within p := by
  simp [Within, none]

end Scope

/-! ## Who is told -/

namespace Search

variable {E P L : Type} {allowed : L → Prop} {J K : Run E P → Prop} {s : Search E P L}

theorem Heeded.allowed_of_hearers (h : s.Heeded allowed J) {number : Nat} {l : L}
    (there : s.hearers[number]? = some l) : allowed l := by
  cases List.mem_append.1 (List.mem_of_getElem? there) with
  | inl listener => exact h.listeners l listener
  | inr reporter => exact h.reporter l (Option.mem_toList.1 reporter)

theorem Heeded.heard_of (h : s.Heeded allowed J) {told : Listener.Told L E P} (listener : allowed told.listener)
    (run : K told.run) (number : Nat) : (s.heard number told).Heeded allowed K := by
  unfold Search.heard
  split
  · refine ⟨fun l member => ?_, h.reporter, run⟩
    cases List.mem_or_eq_of_mem_set member with
    | inl old => exact h.listeners l old
    | inr new => exact new ▸ listener
  · exact ⟨h.listeners, by simpa using listener, run⟩

theorem Heeded.heard (h : s.Heeded allowed J) {told : Listener.Told L E P} (within : told.Within allowed K)
    (number : Nat) : (s.heard number told).Heeded allowed K :=
  h.heard_of within.listener within.run number

end Search

/-! ## Moves -/

section Moves

variable {E P L : Type} [Engine E] {pre post cleared : Search E P L → Prop} (moved : Search E P L → Prop)
  {fail : Failure → Search E P L → Prop}

/-- A step forward drops the last verdict, moves the engine and checks the properties. -/
theorem Search.ensures_forward_of [Checkable E P]
    (clear : ∀ s, pre s → cleared { s with run := { s.run with atViolation := false, lastQuery := none } })
    (step : ∀ s, cleared s → moved { s with run := s.run.stepForward.2 })
    (check : ∀ s, moved s → post { s with run := s.run.checkProperties.2 }) :
    Ensures pre Search.forward (fun _ => post) fail :=
  fun s h => check _ (step _ (clear s h))

theorem Search.ensures_backtrack_of (forget : ∀ s, pre s → cleared { s with run := s.run.forgetQuery })
    (step : ∀ s, cleared s → post { s with run := s.run.stepBack.2 }) :
    Ensures pre Search.backtrack (fun _ => post) fail :=
  fun s h => step _ (forget s h)

/-- A return drops the last verdict and moves the engine; the depth is set if the snapshot is accepted. -/
theorem Search.ensures_restore_of {snapshot : Snapshot (Engine.Saved E)} {strategy : String}
    (clear : ∀ s, pre s → cleared { s with run := { s.run with atViolation := false, lastQuery := none } })
    (step : ∀ s, cleared s → moved { s with run := (s.run.stepTo snapshot).2 })
    (accepted : ∀ s depth, moved s → post { s with run := { s.run with depth } })
    (refused : ∀ s, moved s → fail (.restoreFailed strategy) s) :
    Ensures pre (Search.restore snapshot strategy) (fun _ => post) fail := by
  have dropped : Ensures pre (change fun r => { r with lastQuery := none, atViolation := false })
      (fun _ => cleared) fail := clear
  have back : Ensures cleared (update (Run.stepTo snapshot)) (fun _ => moved) fail := step
  apply dropped.bind
  intro _
  apply back.bind
  intro taken
  cases taken with
  | true => exact fun s h => accepted s _ h
  | false => exact .throw refused

end Moves

/-! ## Courses -/

/-- An event that is announced when the depth was set. -/
def Event.tellsDepth : Event → Bool
  | .searchStarted => true
  | .stateAdvanced => true
  | .stateBacktracked => true
  | .stateRestored => true
  | _ => false

/-- Where a search is: about to set its depth and to announce its start, with nothing left to be told, or
    in the middle of a move, which is made by the engine, counted and announced. -/
inductive Juncture where
  | ready
  | placed
  | level
  | stepped
  | entered
  | left
  | rejoined
  | returned

namespace Juncture

/-- Where a search is if the engine could make the move, and if it could not. -/
def ifMoved (a : Juncture) : Bool → Juncture
  | true => a
  | false => .level

/-- The event that is due. -/
def due? : Juncture → Option Event
  | .entered => some .stateAdvanced
  | .rejoined => some .stateBacktracked
  | .returned => some .stateRestored
  | _ => none

end Juncture

/-- A chore that leaves the depth and all that listeners hold alone. -/
structure Run.Errand {E P : Type} (r r' : Run E P) : Prop extends Run.Chore r r' where
  silent : r.Silent r'
  depth : r'.depth = r.depth

namespace Run.Errand

variable {E P : Type}

theorem record {e : Entry} (r : Run E P) (chore : e.isChore = true) (unannounced : e.bulletin? = none)
    (unremarked : e.remark? = none) : Errand r (r.record e) :=
  ⟨.record r chore, .record r unannounced unremarked, rfl⟩

theorem hasMemory [Engine E] (r : Run E P) : Errand r r.hasMemory.2 :=
  ⟨.hasMemory r, .hasMemory r, (Attended.hasMemory r).depth⟩

theorem endsAtViolation (r : Run E P) : Errand r r.endsAtViolation.2 := by
  refine ⟨.endsAtViolation r, .endsAtViolation r, ?_⟩
  unfold Run.endsAtViolation
  split
  · split <;> rfl
  · rfl

end Run.Errand

/-- The outcome is what the run says. -/
structure Outcome.Of {E P : Type} (r : Run E P) (o : Outcome) : Prop where
  depth : o.depth = r.depth
  errors : o.errors = r.violations.length
  lastConstraint : o.lastConstraint = r.lastConstraint

section Courses

variable {H E P L : Type} [Engine E] [Checkable E P] [Listener E P L]

open Search

/-- What there is to prove of the things that a search does.  While it is under way the search is as
    `J` says for its juncture and for what is still open to the iteration; it is `ended` once its end was
    announced. -/
structure Course (J : Juncture → Scope → Search E P L → Prop) (ended : Search E P L → Prop)
    (fail : Failure → Search E P L → Prop) : Prop where
  prepare : ∀ s r, J .ready .none s → s.run.Errand r → J .ready .none { s with run := r }
  place : ∀ s, J .ready .none s → J .placed .none { s with run := { s.run with depth := 0 } }
  start : Ensures (J .placed .none) (Search.announce .searchStarted) (fun _ => J .level .none) fail
  narrow : ∀ p q s, J .level p s → q.Within p → J .level q s
  turn : ∀ s, J .level .none s → s.run.done = false → J .level .full s
  calm : ∀ p s, J .level p s → (s.run.atViolation = true → s.run.done = false) →
    J .level ⟨p.forward, p.back, true⟩ s
  errand : ∀ p s r, J .level p s → s.run.Errand r → J .level p { s with run := r }
  ask : ∀ p, Ensures (J .level p) Search.isNew (fun _ => J .level p) fail
  forward : ∀ b, Ensures (J .level ⟨true, b, true⟩) Search.forward
    (fun moved => J (Juncture.stepped.ifMoved moved) ⟨false, b, false⟩) fail
  descend : ∀ p, Ensures (J .stepped p) (onRun Run.descend) (fun _ => J .entered p) fail
  backtrack : ∀ f, Ensures (J .level ⟨f, true, true⟩) Search.backtrack
    (fun moved => J (Juncture.left.ifMoved moved) ⟨f, false, true⟩) fail
  ascend : ∀ p, Ensures (J .left p) (onRun Run.ascend) (fun _ => J .rejoined p) fail
  check : ∀ f b, Ensures (J .level ⟨f, b, true⟩) (update Run.checkProperties)
    (fun _ => J .level ⟨f, b, false⟩) fail
  tell : ∀ p a event, a.due? = some event → Ensures (J a p) (Search.announce event) (fun _ => J .level p) fail
  remark : ∀ p event, event.tellsDepth = false → event ≠ .searchFinished →
    Ensures (J .level p) (Search.announce event) (fun _ => J .level p) fail
  finish : Ensures (J .level .none) (Search.announce .searchFinished) (fun _ => ended) fail
  rematch : ∀ s, ended s → ended { s with run := s.run.setMatching true }
  close : ∀ s, ended s → ended { s with run := { s.run with done := true } }

/-- What there is to prove besides where the search makes snapshots, which are `genuine`, and returns to
    them; it sets out from an `origin`. -/
structure Excursion (genuine : Snapshot (Engine.Saved E) → Prop) (origin : Nat → Prop)
    (J : Juncture → Scope → Search E P L → Prop) (ended : Search E P L → Prop)
    (fail : Failure → Search E P L → Prop) : Prop extends Course J ended fail where
  home : ∀ s, J .ready .none s → origin (Engine.pathLength s.run.engine)
  base : ∀ s snapshot, J .ready .none s → Engine.snapshot? s.run.engine = some snapshot →
    genuine snapshot ∧ origin snapshot.pathLength
  settle : ∀ s depth, J .ready .none s → origin depth → J .placed .none { s with run := { s.run with depth } }
  saved : ∀ p s snapshot, J .level p s → Engine.snapshot? s.run.engine = some snapshot → genuine snapshot
  restore : ∀ f snapshot strategy, genuine snapshot → Ensures (J .level ⟨f, true, true⟩)
    (Search.restore snapshot strategy) (fun _ => J .returned ⟨f, false, true⟩) fail
  rechoose : ∀ f b s, J .returned ⟨f, b, true⟩ s →
    J .returned ⟨f, b, true⟩ { s with run := { s.run with engine := Engine.resetChoice s.run.engine } }
  bare : ∀ s name, J .ready .none s → fail (.unsupported name) s
  unable : ∀ p s name, J .level p s → fail (.unsupported name) s

/-- The operation leaves open what was open before. -/
def Search.Abides {α : Type} (J : Scope → Search E P L → Prop) (fail : Failure → Search E P L → Prop)
    (x : SearchM E P L α) : Prop :=
  ∀ p, Ensures (J p) x (fun _ => J p) fail

namespace Search.Abides

omit [Engine E] [Checkable E P] [Listener E P L]

variable {α β : Type} {J : Scope → Search E P L → Prop} {fail : Failure → Search E P L → Prop}

theorem pure (a : α) : Abides J fail (Pure.pure a : SearchM E P L α) :=
  fun _ => .pure fun _ h => h

theorem bind {x : SearchM E P L α} {f : α → SearchM E P L β} (hx : Abides J fail x)
    (hf : ∀ a, Abides J fail (f a)) : Abides J fail (x >>= f) :=
  fun p => (hx p).bind fun a => hf a p

theorem look (f : Run E P → α) : Abides J fail (Search.look (L := L) f) :=
  fun _ _ h => h

end Search.Abides

namespace Course

variable {α : Type} {J : Juncture → Scope → Search E P L → Prop} {ended : Search E P L → Prop}
  {fail : Failure → Search E P L → Prop} (c : Course J ended fail)

include c

/-! ## Operations -/

theorem to_none {p : Scope} (s : Search E P L) (h : J .level p s) : J .level .none s :=
  c.narrow p .none s h p.none_within

theorem abides_change {f : Run E P → Run E P} (errand : ∀ r : Run E P, r.Errand (f r)) :
    Abides (J .level) fail (change f) :=
  fun p s h => c.errand p s _ h (errand s.run)

theorem abides_update {f : Run E P → α × Run E P} (errand : ∀ r : Run E P, r.Errand (f r).2) :
    Abides (J .level) fail (update f) :=
  fun p s h => c.errand p s _ h (errand s.run)

theorem abides_takeBacktrackRequest :
    Abides (J .level) fail (update (E := E) (P := P) (L := L) Run.takeBacktrackRequest) :=
  c.abides_update fun _ => ⟨.of_eq rfl rfl rfl rfl rfl rfl rfl rfl, ⟨rfl, rfl, rfl⟩, rfl⟩

theorem abides_pollProbe : Abides (J .level) fail (pollProbe (E := E) (P := P) (L := L)) := by
  apply Abides.bind
  · exact c.abides_update fun _ => ⟨.of_eq rfl rfl rfl rfl rfl rfl rfl rfl, ⟨rfl, rfl, rfl⟩, rfl⟩
  intro requested
  split
  · exact fun p => c.remark p _ rfl (by decide)
  · exact .pure _

theorem abides_announceConstraint (details : String) :
    Abides (J .level) fail (announceConstraint (E := E) (P := P) (L := L) details) := by
  have noted : Abides (J .level) fail
      (change (L := L) fun r : Run E P => { r with lastConstraint := some details }) :=
    c.abides_change fun _ => ⟨.of_eq rfl rfl rfl rfl rfl rfl rfl rfl, ⟨rfl, rfl, rfl⟩, rfl⟩
  exact noted.bind fun _ p => c.remark p _ rfl (by decide)

theorem abides_announceMemoryLimit :
    Abides (J .level) fail (announceMemoryLimit (E := E) (P := P) (L := L)) := by
  apply Abides.bind (.look _)
  exact fun _ => c.abides_announceConstraint _

theorem abides_announceViolation : Abides (J .level) fail (announceViolation (E := E) (P := P) (L := L)) := by
  apply Abides.bind fun p => c.remark p _ rfl (by decide)
  intro _ p s h
  cases continues : s.run.config.continueOnViolation with
  | true =>
    have forgotten := c.errand p s _ h ⟨.resetProperties s.run continues, ⟨rfl, rfl, rfl⟩, rfl⟩
    simpa [bind, EStateM.bind, Search.look, continues, change] using forgotten
  | false => simpa [bind, EStateM.bind, Search.look, continues, pure, EStateM.pure] using h

/-- Where there is no violation, there is none that ends the search. -/
theorem ensures_lookViolation {p : Scope} :
    Ensures (J .level p) (look (L := L) (fun r : Run E P => r.atViolation))
      (fun violated => J .level ⟨p.forward, p.back, !violated⟩) fail := by
  intro s h
  show J .level ⟨p.forward, p.back, !s.run.atViolation⟩ s
  cases violated : s.run.atViolation with
  | true => exact c.narrow p _ s h ⟨id, id, by simp⟩
  | false => exact c.calm p s h (by simp [violated])

/-- A violation that does not end the search leaves it calm. -/
theorem ensures_endsAtViolation {p : Scope} :
    Ensures (J .level p) (update (E := E) (P := P) (L := L) Run.endsAtViolation)
      (fun ends => J .level ⟨p.forward, p.back, !ends⟩) fail := by
  intro s h
  have kept := c.errand p s _ h (.endsAtViolation s.run)
  rw [update_apply]
  cases ends : s.run.endsAtViolation.1 with
  | true => exact c.narrow p _ _ kept ⟨id, id, by simp⟩
  | false =>
    apply c.calm p _ kept
    intro violated
    cases done : s.run.endsAtViolation.2.done with
    | false => rfl
    | true =>
      unfold Run.endsAtViolation at ends violated done
      cases atViolation : s.run.atViolation <;> cases wasDone : s.run.done <;>
        simp [atViolation, wasDone, Run.requestBacktrack] at ends violated done

theorem ensures_settleViolation {p : Scope} :
    Ensures (J .level p) (settleViolation (E := E) (P := P) (L := L))
      (fun ends => J .level ⟨p.forward, p.back, !ends⟩) fail := by
  apply Ensures.bind c.ensures_lookViolation
  intro violated
  cases violated with
  | true => exact (c.abides_announceViolation _).bind fun _ => c.ensures_endsAtViolation
  | false => exact .pure fun _ h => h

theorem abides_settleDeadEnd : Abides (J .level) fail (settleDeadEnd (E := E) (P := P) (L := L)) := by
  apply Abides.bind fun p => c.remark p _ rfl (by decide)
  intro _
  apply Abides.bind (.look _)
  intro violated
  split
  · exact c.abides_announceViolation.bind fun _ => .pure _
  · exact .pure _

/-- A step forward is counted and announced before the search goes on. -/
theorem ensures_advance {b : Bool} {onward halted : SearchM E P L α} {post : α → Search E P L → Prop}
    (hon : Ensures (J .level ⟨false, b, false⟩) onward post fail)
    (hhalted : Ensures (J .level ⟨false, b, false⟩) halted post fail) :
    Ensures (J .level ⟨true, b, true⟩) (do
      if ← Search.forward then
        onRun Run.descend
        Search.announce .stateAdvanced
        onward
      else halted) post fail := by
  apply Ensures.bind (c.forward b)
  intro moved
  cases moved with
  | true =>
    apply Ensures.bind (c.descend _)
    intro _
    apply Ensures.bind (c.tell _ _ _ rfl)
    exact fun _ => hon
  | false => exact hhalted

/-- So is a step back. -/
theorem ensures_retreat {f : Bool} {onward halted : SearchM E P L α} {post : α → Search E P L → Prop}
    (hon : Ensures (J .level ⟨f, false, true⟩) onward post fail)
    (hhalted : Ensures (J .level ⟨f, false, true⟩) halted post fail) :
    Ensures (J .level ⟨f, true, true⟩) (do
      if ← Search.backtrack then
        onRun Run.ascend
        Search.announce .stateBacktracked
        onward
      else halted) post fail := by
  apply Ensures.bind (c.backtrack f)
  intro moved
  cases moved with
  | true =>
    apply Ensures.bind (c.ascend _)
    intro _
    apply Ensures.bind (c.tell _ _ _ rfl)
    exact fun _ => hon
  | false => exact hhalted

/-- Each iteration of a loop begins with everything open, and needs to leave nothing open. -/
theorem ensures_repeatUntilDone (spent : ∀ s, J .level .none s → fail .outOfFuel s)
    {iterate : α → SearchM E P L (Turn α StopReason)}
    (step : ∀ a, Ensures (J .level .full) (iterate a) (fun _ => J .level .none) fail) (budget : Nat) (a : α) :
    Ensures (J .level .none) (repeatUntilDone iterate budget a) (fun _ => ended) fail := by
  have looped : Ensures (J .level .none) (loop (·.run.done) .terminated iterate budget a)
      (fun _ => J .level .none) fail := by
    refine Ensures.loop (fun _ => J .level .none) ?_ (fun _ => spent) ?_ budget a
    · exact fun _ s h _ => h
    · intro a
      apply ((step a).of_imp fun s h => c.turn _ h.1 h.2).imp
      intro turn s h
      cases turn <;> exact h
  apply looped.bind
  intro reason
  apply Ensures.bind c.finish
  exact fun _ => .pure fun _ h => h

theorem ensures_prepare {f : Run E P → Run E P} (errand : ∀ r : Run E P, r.Errand (f r)) :
    Ensures (J .ready .none) (change (L := L) f) (fun _ => J .ready .none) fail :=
  fun s h => c.prepare s _ h (errand s.run)

theorem ensures_unmatched :
    Ensures (J .ready .none) (change (E := E) (P := P) (L := L) (Run.setMatching false))
      (fun _ => J .ready .none) fail :=
  c.ensures_prepare fun _ => ⟨.of_eq rfl rfl rfl rfl rfl rfl rfl rfl, ⟨rfl, rfl, rfl⟩, rfl⟩

theorem ensures_started {x : SearchM E P L α} {post : α → Search E P L → Prop}
    (h : Ensures (J .level .none) x post fail) :
    Ensures (J .ready .none) (do
      change fun r => { r with depth := 0 }
      Search.announce .searchStarted
      x) post fail := by
  have placed : Ensures (J .ready .none) (change fun r => { r with depth := 0 })
      (fun _ => J .placed .none) fail := c.place
  apply placed.bind
  intro _
  apply c.start.bind
  exact fun _ => h

theorem ensures_launch (strategy : String) :
    Ensures (J .ready .none) (launch (E := E) (P := P) (L := L) strategy) (fun _ => J .ready .none) fail := by
  have started : Ensures (J .ready .none) (do
      change (E := E) (P := P) (L := L) (Run.record (.launched strategy))
      change fun r => { r with matching := true }) (fun _ => J .ready .none) fail := by
    apply Ensures.bind (c.ensures_prepare fun r => .record r rfl rfl rfl)
    exact fun _ => c.ensures_prepare fun _ =>
      ⟨.of_eq rfl rfl rfl rfl rfl rfl rfl rfl, ⟨rfl, rfl, rfl⟩, rfl⟩
  apply Ensures.bind (Abides.look (J := J .ready) _ _)
  intro unguarded
  split
  · exact (c.ensures_prepare fun r => .record r rfl rfl rfl).bind fun _ => started
  · exact started

theorem ensures_conclude (reason : StopReason) :
    Ensures ended (conclude (E := E) (P := P) (L := L) reason)
      (fun o s => ended s ∧ s.run.done = true ∧ o.Of s.run) fail :=
  fun s h => ⟨c.close s h, rfl, rfl, rfl, rfl⟩

theorem ensures_conduct (strategy : String) {explore : SearchM E P L StopReason}
    (h : Ensures (J .ready .none) explore (fun _ => ended) fail) :
    Ensures (J .ready .none) (conduct strategy explore)
      (fun o s => ended s ∧ s.run.done = true ∧ o.Of s.run) fail := by
  apply Ensures.bind (c.ensures_launch strategy)
  intro _
  exact h.bind c.ensures_conclude

end Course

/-! ## Strategies -/

namespace DepthFirst

variable {J : Juncture → Scope → Search E P L → Prop} {ended : Search E P L → Prop}
  {fail : Failure → Search E P L → Prop} (c : Course J ended fail)

include c

theorem abides_checkLimits (limitReached : Bool) :
    Abides (J .level) fail (checkLimits (E := E) (P := P) (L := L) limitReached) := by
  apply Abides.bind (.look _)
  intro limit
  apply Abides.bind (.look _)
  intro depth
  split
  · exact (c.abides_announceConstraint _).bind fun _ => .pure _
  · apply Abides.bind (c.abides_update .hasMemory)
    intro enough
    split
    · exact .pure _
    · exact c.abides_announceMemoryLimit.bind fun _ => .pure _

theorem ensures_advance_abiding (limitReached b : Bool) :
    Ensures (J .level ⟨true, b, true⟩) (advance (E := E) (P := P) (L := L) limitReached)
      (fun _ => J .level .none) fail := by
  apply c.ensures_advance
  · apply Ensures.bind c.ensures_settleViolation
    intro ends
    split
    · exact .pure fun s h => c.to_none s h
    · exact (abides_checkLimits c limitReached _).imp fun _ s h => c.to_none s h
  · apply Ensures.bind (c.remark _ _ rfl (by decide))
    exact fun _ => .pure fun s h => c.to_none s h

theorem abides_mustLeave (limitReached : Bool) :
    Abides (J .level) fail (mustLeave (E := E) (P := P) (L := L) limitReached) := by
  apply Abides.bind c.ask
  intro isNew
  apply Abides.bind c.abides_takeBacktrackRequest
  intro requested
  apply Abides.bind (.look _)
  exact fun _ => .pure _

theorem ensures_iterate_abiding (limitReached : Bool) :
    Ensures (J .level .full) (iterate (E := E) (P := P) (L := L) limitReached) (fun _ => J .level .none)
      fail := by
  apply Ensures.bind (c.abides_pollProbe _)
  intro _
  apply Ensures.bind (abides_mustLeave c limitReached _)
  intro leaves
  split
  · exact c.ensures_retreat (ensures_advance_abiding c false false) (.pure fun s h => c.to_none s h)
  · exact ensures_advance_abiding c limitReached true

theorem ensures_run_abiding (spent : ∀ s, J .level .none s → fail .outOfFuel s) (budget : Nat) :
    Ensures (J .ready .none) (DepthFirst.run (E := E) (P := P) (L := L) budget)
      (fun o s => ended s ∧ s.run.done = true ∧ o.Of s.run) fail := by
  apply c.ensures_conduct
  apply c.ensures_started
  exact c.ensures_repeatUntilDone spent (ensures_iterate_abiding c) budget false

end DepthFirst

namespace Replay

variable {J : Juncture → Scope → Search E P L → Prop} {ended : Search E P L → Prop}
  {fail : Failure → Search E P L → Prop} (c : Course J ended fail)

include c

theorem ensures_advance_abiding (b : Bool) :
    Ensures (J .level ⟨true, b, true⟩) (advance (E := E) (P := P) (L := L)) (fun _ => J .level .none) fail := by
  apply c.ensures_advance
  · apply Ensures.bind c.ensures_settleViolation
    intro ends
    split
    · exact .pure fun s h => c.to_none s h
    · apply Ensures.bind (Abides.look _ _)
      intro engine
      split <;> exact .pure fun s h => c.to_none s h
  · apply Ensures.bind (c.abides_settleDeadEnd _)
    exact fun _ => .pure fun s h => c.to_none s h

theorem ensures_iterate_abiding :
    Ensures (J .level .full) (iterate (E := E) (P := P) (L := L) ()) (fun _ => J .level .none) fail := by
  apply Ensures.bind (c.abides_pollProbe _)
  intro _
  apply Ensures.bind (c.abides_takeBacktrackRequest _)
  intro requested
  split
  · exact c.ensures_retreat (ensures_advance_abiding c false) (.pure fun s h => c.to_none s h)
  · exact ensures_advance_abiding c true

theorem ensures_run_abiding (spent : ∀ s, J .level .none s → fail .outOfFuel s) (budget : Nat) :
    Ensures (J .ready .none) (Replay.run (E := E) (P := P) (L := L) budget)
      (fun o s => ended s ∧ s.run.done = true ∧ o.Of s.run) fail := by
  apply c.ensures_conduct
  apply Ensures.bind c.ensures_unmatched
  intro _
  apply c.ensures_started
  apply Ensures.bind (c.ensures_repeatUntilDone spent (fun _ => ensures_iterate_abiding c) budget ())
  intro reason
  have matched : Ensures ended (change (E := E) (P := P) (L := L) (Run.setMatching true)) (fun _ => ended) fail :=
    c.rematch
  exact matched.bind fun _ => .pure fun _ h => h

end Replay

namespace Simulation

variable {J : Juncture → Scope → Search E P L → Prop} {ended : Search E P L → Prop}
  {fail : Failure → Search E P L → Prop} (c : Course J ended fail)

include c

theorem ensures_iterate_abiding :
    Ensures (J .level .full) (iterate (E := E) (P := P) (L := L) ()) (fun _ => J .level .none) fail := by
  apply Ensures.bind (c.abides_pollProbe _)
  intro _
  apply c.ensures_advance
  · apply Ensures.bind (Abides.look _ _)
    intro violated
    split
    · apply Ensures.bind (c.abides_announceViolation _)
      exact fun _ => .pure fun s h => c.to_none s h
    · apply Ensures.bind (Abides.look _ _)
      intro engine
      split <;> exact .pure fun s h => c.to_none s h
  · apply Ensures.bind (c.abides_settleDeadEnd _)
    exact fun _ => .pure fun s h => c.to_none s h

theorem ensures_run_abiding (spent : ∀ s, J .level .none s → fail .outOfFuel s) (budget : Nat) :
    Ensures (J .ready .none) (Simulation.run (E := E) (P := P) (L := L) budget)
      (fun o s => ended s ∧ s.run.done = true ∧ o.Of s.run) fail := by
  apply c.ensures_conduct
  apply Ensures.bind c.ensures_unmatched
  intro _
  apply c.ensures_started
  exact c.ensures_repeatUntilDone spent (fun _ => ensures_iterate_abiding c) budget ()

end Simulation

namespace RandomRestart

variable {genuine : Snapshot (Engine.Saved E) → Prop} {origin : Nat → Prop}
  {J : Juncture → Scope → Search E P L → Prop} {ended : Search E P L → Prop}
  {fail : Failure → Search E P L → Prop} (c : Excursion genuine origin J ended fail)

include c

/-- Whatever the attempt comes to, the engine made at most one step, and may have to go back. -/
theorem ensures_attempt_abiding :
    Ensures (J .level .full) (attempt (E := E) (P := P) (L := L)) (fun _ => J .level ⟨false, true, false⟩)
      fail := by
  apply Ensures.bind (Abides.look _ _)
  intro limit
  apply Ensures.bind (Abides.look _ _)
  intro depth
  apply Ensures.bind (c.abides_takeBacktrackRequest _)
  intro interrupted
  split
  · apply Ensures.bind (c.abides_announceConstraint _ _)
    intro _
    apply Ensures.bind (c.check true true)
    exact fun _ => .pure fun s h => c.narrow _ _ s h (by decide)
  · split
    · exact .pure fun s h => c.narrow _ _ s h (by decide)
    · apply c.ensures_advance
      · exact .pure fun _ h => h
      · apply Ensures.bind (c.remark _ _ rfl (by decide))
        exact fun _ => .pure fun _ h => h

variable {start : Snapshot (Engine.Saved E)} (made : genuine start)

include made

theorem ensures_finishWalk_abiding (pathLimit walks : Nat) :
    Ensures (J .level ⟨false, true, true⟩) (finishWalk (E := E) (P := P) (L := L) pathLimit start walks)
      (fun _ => J .level .none) fail := by
  apply Ensures.bind (c.abides_change (fun r => .record r rfl rfl rfl) _)
  intro _
  split
  · exact .pure fun s h => c.to_none s h
  · apply Ensures.bind (c.restore false start name made)
    intro _
    have rechosen : Ensures (J .returned ⟨false, false, true⟩)
        (change (L := L) fun r : Run E P => { r with engine := Engine.resetChoice r.engine })
        (fun _ => J .returned ⟨false, false, true⟩) fail :=
      fun s h => c.rechoose false false s h
    apply Ensures.bind rechosen
    intro _
    apply Ensures.bind (c.tell _ _ _ rfl)
    exact fun _ => .pure fun s h => c.to_none s h

theorem ensures_iterate_abiding (pathLimit walks : Nat) :
    Ensures (J .level .full) (iterate (E := E) (P := P) (L := L) pathLimit start walks)
      (fun _ => J .level .none) fail := by
  apply Ensures.bind (c.abides_pollProbe _)
  intro _
  apply Ensures.bind (ensures_attempt_abiding c)
  intro attempt
  apply Ensures.bind c.ensures_lookViolation
  intro violated
  cases violated with
  | true =>
    apply Ensures.bind (c.abides_announceViolation _)
    intro _
    apply Ensures.bind c.ensures_endsAtViolation
    intro ends
    cases ends with
    | true => exact .pure fun s h => c.to_none s h
    | false =>
      apply Ensures.bind (c.abides_takeBacktrackRequest _)
      exact fun _ => ensures_finishWalk_abiding c made pathLimit walks
  | false =>
    apply Ensures.bind (Abides.look _ _)
    intro engine
    split
    · exact .pure fun s h => c.to_none s h
    · exact ensures_finishWalk_abiding c made pathLimit walks

omit made in
theorem ensures_run_abiding (spent : ∀ s, J .level .none s → fail .outOfFuel s) (pathLimit budget : Nat) :
    Ensures (J .ready .none) (RandomRestart.run (E := E) (P := P) (L := L) pathLimit budget)
      (fun o s => ended s ∧ s.run.done = true ∧ o.Of s.run) fail := by
  apply c.ensures_conduct
  intro s h
  cases saved : Engine.snapshot? s.run.engine with
  | none =>
    simp only [explore, bind, EStateM.bind, Search.look, saved]
    exact c.bare s name h
  | some start =>
    obtain ⟨made, origin⟩ := c.base s start h saved
    have placed : Ensures (J .ready .none) (change fun r => { r with depth := start.pathLength })
        (fun _ => J .placed .none) fail :=
      fun s h => c.settle s _ h origin
    have walks : Ensures (J .ready .none) (do
        change (Run.setMatching false)
        change fun r => { r with depth := start.pathLength }
        Search.announce .searchStarted
        repeatUntilDone (iterate (E := E) (P := P) (L := L) (max pathLimit 1) start) budget 0)
        (fun _ => ended) fail := by
      apply Ensures.bind c.ensures_unmatched
      intro _
      apply placed.bind
      intro _
      apply c.start.bind
      exact fun _ => c.ensures_repeatUntilDone spent (ensures_iterate_abiding c made _) budget 0
    have walked := walks s h
    simpa only [explore, bind, EStateM.bind, Search.look, saved] using walked

end RandomRestart

namespace BestFirst

variable {α β : Type} {genuine : Snapshot (Engine.Saved E) → Prop} {origin : Nat → Prop}
  {J : Juncture → Scope → Search E P L → Prop} {ended : Search E P L → Prop}
  {fail : Failure → Search E P L → Prop}

/-- The search is as said, and all queued snapshots are genuine. -/
structure Carries (genuine : Snapshot (Engine.Saved E) → Prop) (K : Search E P L → Prop)
    (x : Expedition H E P L) : Prop where
  search : K x.search
  queued : ∀ e ∈ x.strategy.frontier.entries, genuine e.2.snapshot

/-- The operation leaves open what was open before. -/
def Abides (genuine : Snapshot (Engine.Saved E) → Prop) (J : Scope → Search E P L → Prop)
    (fail : Failure → Search E P L → Prop) (x : ExpeditionM H E P L α) : Prop :=
  ∀ p, Ensures (Carries genuine (J p)) x (fun _ => Carries genuine (J p)) fun f x => fail f x.search

section Rules

omit [Checkable E P] [Listener E P L]

variable {J : Scope → Search E P L → Prop}

theorem Carries.imp {K K' : Search E P L → Prop} {x : Expedition H E P L} (h : Carries genuine K x)
    (imp : ∀ s, K s → K' s) : Carries genuine K' x :=
  ⟨imp _ h.search, h.queued⟩

theorem ensures_carried {K : Search E P L → Prop} {x : SearchM E P L α} {K' : α → Search E P L → Prop}
    (h : Ensures K x K' fail) : Ensures (Carries genuine K) (onSearch (H := H) x)
      (fun a => Carries genuine (K' a)) fun f x => fail f x.search := by
  have lifted := ensures_onSearch h fun b : BestFirst H E => ∀ e ∈ b.frontier.entries, genuine e.2.snapshot
  exact (lifted.of_imp fun _ hx => ⟨hx.search, hx.queued⟩).imp fun _ _ hx => ⟨hx.1, hx.2⟩

/-- Where all snapshots will do, only the search matters. -/
theorem ensures_of_carried {K : Search E P L → Prop} {x : ExpeditionM H E P L α}
    {K' : α → Search E P L → Prop} {fail : Failure → Expedition H E P L → Prop}
    (h : Ensures (Carries (fun _ => True) K) x (fun a => Carries (fun _ => True) (K' a)) fail) :
    Ensures (fun x => K x.search) x (fun a x => K' a x.search) fail :=
  (h.of_imp fun _ hx => ⟨hx, fun _ _ => trivial⟩).imp fun _ _ hx => hx.search

theorem Abides.pure (a : α) : Abides genuine J fail (Pure.pure a : ExpeditionM H E P L α) :=
  fun _ => .pure fun _ h => h

theorem Abides.bind {x : ExpeditionM H E P L α} {f : α → ExpeditionM H E P L β}
    (hx : Abides genuine J fail x) (hf : ∀ a, Abides genuine J fail (f a)) :
    Abides genuine J fail (x >>= f) :=
  fun p => (hx p).bind fun a => hf a p

theorem Abides.look (f : Run E P → α) : Abides genuine J fail (BestFirst.look (H := H) (L := L) f) :=
  fun _ _ h => h

theorem Abides.onSearch {x : SearchM E P L α} (h : Search.Abides J fail x) :
    Abides genuine J fail (BestFirst.onSearch (H := H) x) :=
  fun p => ensures_carried (h p)

end Rules

section Walk

variable (c : Excursion genuine origin J ended fail)

include c

theorem ensures_leave_abiding :
    Ensures (Carries genuine (J .level ⟨false, true, true⟩)) (leave (H := H) (E := E) (P := P) (L := L))
      (fun _ => Carries genuine (J .level .none)) fun f x => fail f x.search := by
  apply Ensures.bind (Abides.onSearch (c.abides_update .hasMemory) _)
  intro enough
  split
  · apply Ensures.bind (ensures_carried (c.backtrack false))
    intro moved
    cases moved with
    | true =>
      apply Ensures.bind (ensures_carried (c.ascend _))
      intro _
      apply Ensures.bind (ensures_carried (c.tell _ _ _ rfl))
      exact fun _ => .pure fun _ h => h.imp c.to_none
    | false => exact .pure fun _ h => h.imp c.to_none
  · apply Ensures.bind (Abides.onSearch c.abides_announceMemoryLimit _)
    exact fun _ => .pure fun _ h => h.imp c.to_none

/-- Each iteration of a loop begins with everything open, and needs to leave nothing open. -/
theorem ensures_loop_abiding (spent : ∀ s, J .level .none s → fail .outOfFuel s) (ifDone : β)
    {iterate : α → ExpeditionM H E P L (Turn α β)}
    (step : ∀ a, Ensures (Carries genuine (J .level .full)) (iterate a)
      (fun _ => Carries genuine (J .level .none)) fun f x => fail f x.search) (budget : Nat) (a : α) :
    Ensures (Carries genuine (J .level .none)) (loop (·.search.run.done) ifDone iterate budget a)
      (fun _ => Carries genuine (J .level .none)) fun f x => fail f x.search := by
  refine Ensures.loop (fun _ => Carries genuine (J .level .none)) ?_ ?_ ?_ budget a
  · exact fun _ x h _ => h
  · exact fun _ x h => spent x.search h.search
  · intro a
    apply ((step a).of_imp fun x h => ⟨c.turn _ h.1.search h.2, h.1.queued⟩).imp
    intro turn x h
    cases turn <;> exact h

variable [Heuristic H E P]
  (ranked : ∀ p s (h : H) f, J .level p s → (Heuristic.priority s.run h).1 = .error f → fail (.fault f) s)

include ranked

theorem abides_offerCurrent :
    Abides genuine (J .level) fail (offerCurrent (H := H) (E := E) (P := P) (L := L)) := by
  intro p x hx
  obtain ⟨stored, strategy, snapshot, offered, saved, -, queued⟩ | unsupported | ⟨fault, failing, failed⟩ :=
    offerCurrent_cases x
  · rw [offered]
    refine ⟨hx.search, ?_⟩
    intro e member
    cases queued e member with
    | inl new => exact new ▸ c.saved p _ _ hx.search saved
    | inr old => exact hx.queued e old
  · rw [unsupported]
    exact c.unable p _ _ hx.search
  · rw [failed]
    exact ranked p _ _ _ hx.search failing

theorem abides_store : Abides genuine (J .level) fail (store (H := H) (E := E) (P := P) (L := L)) := by
  apply Abides.bind (abides_offerCurrent c ranked)
  intro stored
  split
  · exact .onSearch fun p => c.remark p _ rfl (by decide)
  · exact .pure _

theorem abides_consider : Abides genuine (J .level) fail (consider (H := H) (E := E) (P := P) (L := L)) := by
  have limited : Abides genuine (J .level) fail (storeWithinLimit (H := H) (E := E) (P := P) (L := L)) := by
    intro p
    apply Ensures.get
    intro x hx
    split
    · have told (details : String) :
          Abides genuine (J .level) fail (onSearch (H := H) (announceConstraint (E := E) (P := P) (L := L) details)) :=
        .onSearch (c.abides_announceConstraint details)
      exact ((told _ p).of_eq hx).bind fun _ => abides_store c ranked p
    · exact (abides_store c ranked p).of_eq hx
  apply Abides.bind (.onSearch c.ask)
  intro isNew
  apply Abides.bind (.look _)
  intro limit
  apply Abides.bind (.look _)
  intro depth
  split
  · exact .onSearch (c.abides_announceConstraint _)
  · apply Abides.bind (.look _)
    intro sensitive
    split
    · exact limited
    · exact .pure _

theorem ensures_receive_abiding :
    Ensures (Carries genuine (J .level ⟨false, true, false⟩)) (receive (H := H) (E := E) (P := P) (L := L))
      (fun ends => Carries genuine (J .level ⟨false, true, !ends⟩)) fun f x => fail f x.search := by
  have violation : Ensures (Carries genuine (J .level ⟨false, true, false⟩))
      (look (H := H) (E := E) (P := P) (L := L) (·.atViolation))
      (fun violated => Carries genuine (J .level ⟨false, true, !violated⟩)) fun f x => fail f x.search :=
    fun x hx => ⟨c.ensures_lookViolation x.search hx.search, hx.queued⟩
  apply violation.bind
  intro violated
  cases violated with
  | true =>
    apply Ensures.bind (Abides.onSearch c.ask _)
    intro _
    apply Ensures.bind (Abides.onSearch c.abides_announceViolation _)
    intro _
    apply Ensures.bind (ensures_carried c.ensures_endsAtViolation)
    intro ends
    cases ends with
    | true => exact .pure fun _ h => h
    | false =>
      apply Ensures.bind (Abides.onSearch c.abides_takeBacktrackRequest _)
      exact fun _ => .pure fun _ h => h
  | false =>
    apply Ensures.bind (Abides.look _ _)
    intro engine
    split
    · exact .pure fun _ h => h
    · apply Ensures.bind (abides_consider c ranked _)
      exact fun _ => .pure fun _ h => h

theorem ensures_generate_abiding :
    Ensures (Carries genuine (J .level .full)) (generate (H := H) (E := E) (P := P) (L := L) ())
      (fun _ => Carries genuine (J .level .none)) fun f x => fail f x.search := by
  apply Ensures.bind (Abides.onSearch c.abides_pollProbe _)
  intro _
  apply Ensures.bind (ensures_carried (c.forward true))
  intro moved
  cases moved with
  | true =>
    apply Ensures.bind (ensures_carried (c.descend _))
    intro _
    apply Ensures.bind (ensures_carried (c.tell _ _ _ rfl))
    intro _
    apply Ensures.bind (ensures_receive_abiding c ranked)
    intro ends
    cases ends with
    | true => exact .pure fun _ h => h.imp c.to_none
    | false => exact ensures_leave_abiding c
  | false =>
    apply Ensures.bind (ensures_carried (c.remark _ _ rfl (by decide)))
    exact fun _ => .pure fun _ h => h.imp c.to_none

variable (spent : ∀ s, J .level .none s → fail .outOfFuel s)

include spent

theorem ensures_expandBest_abiding (budget : Nat) :
    Ensures (Carries genuine (J .level .full)) (expandBest (H := H) (E := E) (P := P) (L := L) budget ())
      (fun _ => Carries genuine (J .level .none)) fun f x => fail f x.search := by
  apply Ensures.get
  intro x hx
  cases popped : x.strategy.frontier.pop? with
  | none => exact .pure fun _ eq => eq ▸ hx.imp c.to_none
  | some best =>
    obtain ⟨⟨key, member⟩, rest, -⟩ := Frontier.mem_of_pop? popped
    have carried : Carries genuine (J .level .full)
        { x with strategy := { x.strategy with frontier := best.2 } } :=
      ⟨hx.search, fun e member => hx.queued e (rest member)⟩
    have noted : Abides genuine (J .level) fail (onSearch (H := H) (change (Run.record
        (.expanding (Named.name x.strategy.heuristic) best.1.state best.2.size)))) :=
      .onSearch (c.abides_change fun r => .record r rfl rfl rfl)
    apply Ensures.set
    apply Ensures.bind ((noted .full).of_eq carried)
    intro _
    apply Ensures.bind (ensures_carried (c.restore true best.1.snapshot name (hx.queued _ member)))
    intro _
    apply Ensures.bind (ensures_carried (c.tell _ _ _ rfl))
    intro _
    have expanded := ensures_loop_abiding c spent none
      (fun _ => ensures_generate_abiding (H := H) c ranked) budget ()
    apply Ensures.bind (expanded.of_imp fun _ h => h.imp c.to_none)
    intro reason
    cases reason <;> exact .pure fun _ h => h

theorem ensures_explore_abiding (budget : Nat) :
    Ensures (fun x => J .ready .none x.search) (explore (H := H) (E := E) (P := P) (L := L) budget)
      (fun _ x => ended x.search) fun f x => fail f x.search := by
  have cleared : Ensures (fun x : Expedition H E P L => J .ready .none x.search)
      (modify fun x => { x with strategy := x.strategy.clear }) (fun _ => Carries genuine (J .ready .none))
      fun f x => fail f x.search :=
    .modifying fun x h => ⟨h, by simp [clear]⟩
  have placed : Ensures (J .ready .none) (change fun r => { r with depth := Engine.pathLength r.engine })
      (fun _ => J .placed .none) fail :=
    fun s h => c.settle s _ h (c.home s h)
  have finished (reason : StopReason) :
      Ensures (Carries genuine (J .level .none)) (do
        onSearch (H := H) (Search.announce (E := E) (P := P) (L := L) .searchFinished)
        return reason) (fun _ x => ended x.search) fun f x => fail f x.search :=
    (ensures_carried c.finish).bind fun _ => .pure fun _ h => h.search
  apply cleared.bind
  intro _
  apply Ensures.bind (ensures_carried placed)
  intro _
  apply Ensures.bind (ensures_carried c.start)
  intro _
  apply Ensures.bind (abides_store c ranked _)
  intro _
  refine Ensures.bind (?_ : Ensures _ _ (fun _ => Carries genuine (J .level .none)) _) fun _ => ?_
  · apply Ensures.modifying
    intro x h
    split
    · rename_i popped
      exact ⟨h.search, fun e member => h.queued e ((Frontier.mem_of_pop? popped).2.1 member)⟩
    · exact h
  apply Ensures.bind
  · exact ensures_loop_abiding c spent _ (fun _ => ensures_generate_abiding c ranked) budget ()
  intro reason
  cases reason with
  | some reason => exact finished reason
  | none =>
    apply Ensures.bind
    · exact ensures_loop_abiding c spent _ (fun _ => ensures_expandBest_abiding c ranked spent budget) budget ()
    exact finished

theorem ensures_run_abiding (budget : Nat) :
    Ensures (fun x => J .ready .none x.search) (BestFirst.run (H := H) (E := E) (P := P) (L := L) budget)
      (fun o x => ended x.search ∧ x.search.run.done = true ∧ o.Of x.search.run)
      fun f x => fail f x.search := by
  apply Ensures.bind (ensures_onSearch_alone (c.ensures_launch name))
  intro _
  apply Ensures.bind (ensures_explore_abiding c ranked spent budget)
  exact fun reason => ensures_onSearch_alone (c.ensures_conclude reason)

end Walk

end BestFirst

/-! ## All strategies -/

/-- A strategy with all that its runs depend on. -/
inductive Strategy (H E : Type) [Engine E] where
  | depthFirst
  | replay
  | simulation
  | randomRestart (pathLimit : Nat)
  | bestFirst (search : BestFirst H E)

namespace Strategy

variable [Heuristic H E P]

/-- Runs the strategy; what a best-first search counted is dropped. -/
def run (budget : Nat) : Strategy H E → SearchM E P L Outcome
  | .depthFirst => DepthFirst.run budget
  | .replay => Replay.run budget
  | .simulation => Simulation.run budget
  | .randomRestart pathLimit => RandomRestart.run pathLimit budget
  | .bestFirst b => fun s =>
    match BestFirst.run budget { strategy := b, search := s } with
    | .ok outcome x => .ok outcome x.search
    | .error f x => .error f x.search

/-- What holds of the run of an expedition holds of the run of the strategy. -/
theorem ensures_bestFirst {budget : Nat} {b : BestFirst H E} {pre : Search E P L → Prop}
    {post : Outcome → Search E P L → Prop} {fail : Failure → Search E P L → Prop}
    (h : Ensures (fun x : Expedition H E P L => x.strategy = b ∧ pre x.search) (BestFirst.run budget)
      (fun o x => post o x.search) fun f x => fail f x.search) :
    Ensures pre ((Strategy.bestFirst b).run budget) post fail := by
  intro s hs
  have after := h { strategy := b, search := s } ⟨rfl, hs⟩
  simp only [run]
  cases result : BestFirst.run budget { strategy := b, search := s } with
  | ok o x =>
    rw [result] at after
    exact after
  | error f x =>
    rw [result] at after
    exact after

/-- Every strategy keeps to every course. -/
theorem ensures_run_abiding {genuine : Snapshot (Engine.Saved E) → Prop} {origin : Nat → Prop}
    {J : Juncture → Scope → Search E P L → Prop} {ended : Search E P L → Prop}
    {fail : Failure → Search E P L → Prop} (c : Excursion genuine origin J ended fail)
    (ranked : ∀ p s (h : H) f, J .level p s → (Heuristic.priority s.run h).1 = .error f → fail (.fault f) s)
    (spent : ∀ s, J .level .none s → fail .outOfFuel s) (a : Strategy H E) (budget : Nat) :
    Ensures (J .ready .none) (a.run budget) (fun o s => ended s ∧ s.run.done = true ∧ o.Of s.run) fail := by
  cases a with
  | depthFirst => exact DepthFirst.ensures_run_abiding c.toCourse spent budget
  | replay => exact Replay.ensures_run_abiding c.toCourse spent budget
  | simulation => exact Simulation.ensures_run_abiding c.toCourse spent budget
  | randomRestart pathLimit => exact RandomRestart.ensures_run_abiding c spent pathLimit budget
  | bestFirst b =>
    exact ensures_bestFirst ((BestFirst.ensures_run_abiding c ranked spent budget).of_imp fun _ h => h.2)

end Strategy

/-! ## Disciplines -/

/-- What there is to prove of the things that a search does.  While it is under way the search is as
    `J` says for what is still open to the iteration; it is `ended` once its end was announced. -/
structure Discipline (J : Scope → Search E P L → Prop) (ended : Search E P L → Prop)
    (fail : Failure → Search E P L → Prop) : Prop where
  narrow : ∀ p q s, J p s → q.Within p → J q s
  turn : ∀ s, J .none s → s.run.done = false → J .full s
  calm : ∀ p s, J p s → (s.run.atViolation = true → s.run.done = false) → J ⟨p.forward, p.back, true⟩ s
  chore : ∀ p s r, J p s → s.run.Chore r → J p { s with run := r }
  rechoose : ∀ f b s, J ⟨f, b, true⟩ s →
    J ⟨f, b, true⟩ { s with run := { s.run with engine := Engine.resetChoice s.run.engine } }
  forward : ∀ b, Ensures (J ⟨true, b, true⟩) Search.forward (fun _ => J ⟨false, b, false⟩) fail
  backtrack : ∀ f, Ensures (J ⟨f, true, true⟩) Search.backtrack (fun _ => J ⟨f, false, true⟩) fail
  restore : ∀ f snapshot strategy, Ensures (J ⟨f, true, true⟩) (Search.restore snapshot strategy)
    (fun _ => J ⟨f, false, true⟩) fail
  check : ∀ f b, Ensures (J ⟨f, b, true⟩) (update Run.checkProperties) (fun _ => J ⟨f, b, false⟩) fail
  announce : ∀ p event, event ≠ .searchFinished →
    Ensures (J p) (Search.announce event) (fun _ => J p) fail
  finish : Ensures (J .none) (Search.announce .searchFinished) (fun _ => ended) fail
  close : ∀ s r, ended s → s.run.Chore r → ended { s with run := r }
  lapse : ∀ p s f, J p s → f.isLapse = true → fail f s

omit [Engine E] [Checkable E P] [Listener E P L] in
/-- To begin a run is a chore. -/
theorem Search.launch_eq (strategy : String) (s : Search E P L) :
    ∃ r, launch strategy s = .ok () { s with run := r } ∧ s.run.Chore r := by
  have noted (r : Run E P) : r.Chore { r.record (.launched strategy) with matching := true } :=
    (Run.Chore.record r rfl).trans (.of_eq rfl rfl rfl rfl rfl rfl rfl rfl)
  cases unguarded : s.run.properties.isEmpty with
  | true =>
    refine ⟨{ (s.run.record .unguarded).record (.launched strategy) with matching := true }, ?_,
      (Run.Chore.record s.run rfl).trans (noted _)⟩
    simp [launch, bind, EStateM.bind, unguarded]
  | false =>
    refine ⟨{ s.run.record (.launched strategy) with matching := true }, ?_, noted _⟩
    simp [launch, bind, EStateM.bind, unguarded]

namespace Discipline

variable {α : Type} {J : Scope → Search E P L → Prop} {ended : Search E P L → Prop}
  {fail : Failure → Search E P L → Prop} (d : Discipline J ended fail)

include d

theorem abides_onRun {x : RunM E P α}
    (chore : ∀ r : Run E P, Ensures (· = r) x (fun _ => r.Chore) fun f r' => r' = r ∧ f.isLapse = true) :
    Abides J fail (onRun x) := by
  intro p s h
  have after := chore s.run s.run rfl
  unfold onRun
  cases result : x s.run with
  | ok a r =>
    rw [result] at after
    exact d.chore p s r h after
  | error f r =>
    rw [result] at after
    obtain ⟨rfl, lapse⟩ := after
    exact d.lapse p s f h lapse

theorem abides_isNew : Abides J fail (Search.isNew (E := E) (P := P) (L := L)) := by
  apply d.abides_onRun
  rintro _ r rfl
  obtain ⟨answer, depths, query, asked, -⟩ | ⟨f, failed, -⟩ := Run.isNew_cases r
  · rw [asked]
    exact .of_eq rfl rfl rfl rfl rfl rfl rfl rfl
  · rw [failed]
    exact ⟨rfl, Run.isLapse_of_isNew failed⟩

theorem abides_descend : Abides J fail (onRun (E := E) (P := P) (L := L) Run.descend) := by
  apply d.abides_onRun
  rintro _ r rfl
  rw [Run.descend_apply]
  cases addWords r.depth 1 with
  | ok depth => exact Run.Chore.of_eq rfl rfl rfl rfl rfl rfl rfl rfl
  | error f => exact And.intro rfl rfl

theorem abides_ascend : Abides J fail (onRun (E := E) (P := P) (L := L) Run.ascend) := by
  apply d.abides_onRun
  rintro _ r rfl
  rw [Run.ascend_apply]
  by_cases root : r.depth = 0
  · rw [if_pos root]
    exact And.intro rfl rfl
  · rw [if_neg root]
    exact Run.Chore.of_eq rfl rfl rfl rfl rfl rfl rfl rfl

/-- Whatever the juncture, the search is as it has to be. -/
theorem excursion : Excursion (fun _ => True) (fun _ => True) (fun _ => J) ended fail where
  prepare s r h errand := d.chore _ s r h errand.toChore
  place s h := d.chore _ s _ h (.of_eq rfl rfl rfl rfl rfl rfl rfl rfl)
  start := d.announce _ _ (by decide)
  narrow := d.narrow
  turn := d.turn
  calm := d.calm
  errand p s r h errand := d.chore p s r h errand.toChore
  ask := d.abides_isNew
  forward := d.forward
  descend := d.abides_descend
  backtrack := d.backtrack
  ascend := d.abides_ascend
  check := d.check
  tell p a event due := d.announce p event (by rintro rfl; cases a <;> cases due)
  remark p event _ other := d.announce p event other
  finish := d.finish
  rematch s h := d.close s _ h (.of_eq rfl rfl rfl rfl rfl rfl rfl rfl)
  close s h := d.close s _ h (.stop s.run)
  home _ _ := trivial
  base _ _ _ _ := ⟨trivial, trivial⟩
  settle s depth h _ := d.chore _ s _ h (.of_eq rfl rfl rfl rfl rfl rfl rfl rfl)
  saved _ _ _ _ _ := trivial
  restore f snapshot strategy _ := d.restore f snapshot strategy
  rechoose := d.rechoose
  bare s name h := d.lapse _ s _ h rfl
  unable p s name h := d.lapse p s _ h rfl

theorem ranked [Heuristic H E P] (p : Scope) (s : Search E P L) (h : H) (f : Fault) (hs : J p s)
    (_ : (Heuristic.priority s.run h).1 = .error f) : fail (.fault f) s :=
  d.lapse p s _ hs rfl

end Discipline

/-! ## What every step keeps -/

/-- A failure of the search itself while it does something. -/
def Failure.isSetback : Failure → Bool
  | .restoreFailed _ => true
  | f => f.isLapse

/-- What everything that a search does keeps is kept by every strategy. -/
theorem Discipline.of_kept {K : Search E P L → Prop} {fail : Failure → Search E P L → Prop}
    (kept : ∀ o s t, Does o s t → K s → K t)
    (told : ∀ number event f s l, K s → s.hearers[number]? = some l →
      (Listener.tell event l s.run).verdict = .error f →
      fail f (s.heard number (Listener.tell event l s.run)))
    (setback : ∀ f s, K s → f.isSetback = true → fail f s) : Discipline (fun _ => K) K fail := by
  have announced (event : Event) : Ensures K (Search.announce event) (fun _ => K) fail := by
    apply ensures_announce_of_broadcast fun s h => kept _ _ _ (.announce event s) h
    apply ensures_broadcast_of_calls (I := fun _ => K)
    intro number s l h there
    exact ⟨fun _ => kept _ _ _ (.call event there) h, fun f failed => told number event f s l h there failed⟩
  have cleared (s : Search E P L) (h : K s) :
      K { s with run := { s.run with atViolation := false, lastQuery := none } } :=
    kept _ _ _ (.clear s) h
  have minded {s : Search E P L} {r : Run E P} (h : K s) (chore : s.run.Chore r) : K { s with run := r } :=
    kept _ _ _ (.chore chore) h
  have checked : Ensures K (update Run.checkProperties) (fun _ => K) fail :=
    fun s h => kept _ _ _ (.check s) h
  exact
    { narrow := fun _ _ _ h _ => h
      turn := fun _ h _ => h
      calm := fun _ _ h _ => h
      chore := fun _ _ _ h chore => minded h chore
      rechoose := fun _ _ s h => kept _ _ _ (.rechoose s) h
      forward := fun b => ensures_forward_of K cleared (fun s h => kept _ _ _ (.forward s) h) checked
      backtrack := fun f => ensures_backtrack_of
        (fun s h => minded h (.of_eq rfl rfl rfl rfl rfl rfl rfl rfl)) fun s h => kept _ _ _ (.backtrack s) h
      restore := fun f snapshot strategy => ensures_restore_of K cleared
        (fun s h => kept _ _ _ (.restore snapshot s) h)
        (fun s _ h => minded h (.of_eq rfl rfl rfl rfl rfl rfl rfl rfl)) fun s h => setback _ s h rfl
      check := fun _ _ => checked
      announce := fun _ event _ => announced event
      finish := announced .searchFinished
      close := fun _ _ h chore => minded h chore
      lapse := fun _ s f h lapse => setback f s h (by cases f <;> first | rfl | exact lapse) }

/-- Every strategy abides by every discipline. -/
theorem Strategy.ensures_run [Heuristic H E P] {J : Scope → Search E P L → Prop} {ended : Search E P L → Prop}
    {fail : Failure → Search E P L → Prop} (d : Discipline J ended fail)
    (spent : ∀ s, J .none s → fail .outOfFuel s) (a : Strategy H E) (budget : Nat) :
    Ensures (J .none) (a.run budget) (fun _ s => ended s ∧ s.run.done = true) fail :=
  (a.ensures_run_abiding d.excursion d.ranked spent budget).imp fun _ _ h => ⟨h.1, h.2.1⟩

end Courses

end Statewalk
