import Statewalk.Proofs.DepthFirstOutline
import Statewalk.Proofs.Disciplines
import Statewalk.Proofs.JournalBlindness
import Statewalk.Proofs.Tandem

/-! # Strategies that walk once

Replay, simulation and a random restart with a single walk follow the engine forward.  Each has an iteration
of its own: they look for dead ends, violations, end states and limits in different orders.  As long as nobody
asks to step back, a violation ends the search and the depth limit is out of reach, the three do the same.

Replay iterates as simulation does, and a random restart iterates as simulation does and then counts its walk.
So each of them is a `walk`: the loop of a simulation, between what the strategy notes of itself in the journal.
-/

namespace Statewalk

/-! ## Runs that go straight on -/

namespace Run

variable {E P : Type}

/-- Nobody asked to step back, and a violation ends the search. -/
structure Straight (r : Run E P) : Prop where
  ahead : r.backtrackRequested = false
  config : r.config.continueOnViolation = false
  violation : r.atViolation = true → r.done = true

/-- A change that does not turn a run off its course: nobody asks to step back, the depth stays and its limit
    is not lowered, and no violation is taken away. -/
structure Spares (r r' : Run E P) : Prop where
  straight : r.Straight → r'.Straight
  depth : r'.depth = r.depth
  limit : r.config.depthLimit ≤ r'.config.depthLimit
  atViolation : r.atViolation = true → r'.atViolation = true

theorem Spares.of_eq {r r' : Run E P} (backtrack : r'.backtrackRequested = r.backtrackRequested)
    (config : r'.config = r.config) (depth : r'.depth = r.depth) (done : r'.done = r.done)
    (atViolation : r'.atViolation = r.atViolation) : Spares r r' where
  straight h :=
    { ahead := backtrack.trans h.ahead
      config := config ▸ h.config
      violation := fun violated => done.trans (h.violation (atViolation ▸ violated)) }
  depth := depth
  limit := config ▸ Nat.le_refl _
  atViolation := atViolation.trans

theorem Spares.licence : Licence (Spares (E := E) (P := P)) where
  refl _ := .of_eq rfl rfl rfl rfl rfl
  trans _ _ _ h h' :=
    { straight := fun straight => h'.straight (h.straight straight)
      depth := h'.depth.trans h.depth
      limit := h.limit.trans h'.limit
      atViolation := fun violated => h'.atViolation (h.atViolation violated) }
  record _ _ := .of_eq rfl rfl rfl rfl rfl

/-- With so many iterations left, the depth limit is out of reach. -/
structure HasRoom (n : Nat) (r : Run E P) : Prop extends Straight r where
  room : r.depth + n ≤ r.config.depthLimit

/-- The last step found a violation, which ends the search. -/
structure Convicted (r : Run E P) : Prop extends Straight r where
  atViolation : r.atViolation = true

theorem HasRoom.spared {n : Nat} {r r' : Run E P} (h : r.HasRoom n) (spared : Spares r r') : r'.HasRoom n where
  toStraight := spared.straight h.toStraight
  room := spared.depth ▸ h.room.trans spared.limit

theorem Convicted.spared {r r' : Run E P} (h : r.Convicted) (spared : Spares r r') : r'.Convicted where
  toStraight := spared.straight h.toStraight
  atViolation := spared.atViolation h.atViolation

/-- Nothing is asked, so nothing is taken away. -/
theorem Straight.takeBacktrackRequest {r : Run E P} (h : r.Straight) : r.takeBacktrackRequest = (false, r) := by
  have same : { r with backtrackRequested := false } = r := by rw [← h.ahead]
  rw [Run.takeBacktrackRequest, h.ahead, same]

theorem Convicted.endsAtViolation {r : Run E P} (h : r.Convicted) : r.endsAtViolation = (true, r) := by
  rw [Run.endsAtViolation, if_pos h.atViolation, if_pos (h.violation h.atViolation)]

variable [Engine E]

/-- A violation ends the search, so there is no need to leave it by stepping back. -/
theorem Spares.violate [Property P] (w : Watched P) (r : Run E P) : Spares r (r.violate w) where
  straight h := ⟨h.ahead, h.config, fun _ => by simp [Run.violate, Run.record, h.config]⟩
  depth := rfl
  limit := Nat.le_refl _
  atViolation _ := rfl

theorem Spares.checkProperties [Checkable E P] (r : Run E P) : Spares r r.checkProperties.2 := by
  rcases checked : checkUntil r r.properties with ⟨properties, _ | w⟩
  · simp only [Run.checkProperties, checked]
    exact .of_eq rfl rfl rfl rfl rfl
  · simp only [Run.checkProperties, checked]
    have kept : r.Spares { r with properties } := .of_eq rfl rfl rfl rfl rfl
    exact Spares.licence.trans _ _ _ kept (.violate w _)

omit [Engine E] in
theorem Spares.endsAtViolation (r : Run E P) : Spares r r.endsAtViolation.2 := by
  unfold Run.endsAtViolation
  split
  · rename_i violated
    split
    · exact Spares.licence.refl r
    · rename_i undone
      exact ⟨fun h => absurd (h.violation violated) undone, rfl, Nat.le_refl _, id⟩
  · exact Spares.licence.refl r

end Run

section Rules

variable {E P : Type} [Engine E] [Property P]

/-- The action neither asks to step back nor sets the depth limit. -/
def Action.isForward : Action P → Bool
  | .requestBacktrack | .setDepthLimit _ => false
  | _ => true

/-- No rule of the listener asks to step back or sets the depth limit. -/
def RuleListener.isForward (l : RuleListener P) : Prop :=
  l.Obeys fun action => action.isForward = true

theorem Action.spares_perform (action : Action P) (forward : action.isForward = true) :
    RunM.Changes (E := E) Run.Spares action.perform := by
  cases action with
  | requestBacktrack | setDepthLimit => cases forward
  | terminate =>
    apply changes_change
    exact fun _ => ⟨fun h => ⟨h.ahead, h.config, fun _ => rfl⟩, rfl, Nat.le_refl _, id⟩
  | takeBacktrack =>
    apply changes_ask
    exact fun _ => ⟨fun h => ⟨rfl, h.config, h.violation⟩, rfl, Nat.le_refl _, id⟩
  | isNew | isVisited => exact changes_isNew (fun _ _ _ => .of_eq rfl rfl rfl rfl rfl) _
  | stateDepth state => exact changes_stateDepth Run.Spares.licence state
  | hasMemory =>
    apply changes_ask
    intro r
    apply Run.kept_hasMemory (J := Run.Spares r)
    · exact fun r' m h => Run.Spares.licence.trans _ _ _ h (.of_eq rfl rfl rfl rfl rfl)
    · exact fun r' _ _ h => Run.Spares.licence.trans _ _ _ h (Run.Spares.licence.record _ r')
    · exact fun r' _ h => Run.Spares.licence.trans _ _ _ h (Run.Spares.licence.record _ r')
    · exact Run.Spares.licence.refl r
  | endsAtViolation => exact changes_ask Run.Spares.endsAtViolation
  | raise p =>
    rintro _ r rfl
    let w : Watched P := { key := r.nextKey, property := p }
    have known : r.Spares { r with retired := r.retired ++ [w] } := .of_eq rfl rfl rfl rfl rfl
    exact Run.Spares.licence.trans _ _ _ known (.violate w _)
  | engineForward =>
    apply changes_ask
    intro r
    rw [Run.stepForward_eq]
    exact .of_eq rfl rfl rfl rfl rfl
  | _ => first | exact changes_look Run.Spares.licence _ | exact changes_change fun _ => .of_eq rfl rfl rfl rfl rfl

theorem RuleListener.conducts_spares :
    Listener.Conducts (E := E) (P := P) Run.Spares (RuleListener.isForward (P := P)) :=
  conducts Run.Spares.licence Action.spares_perform

end Rules

/-! ## One iteration -/

namespace Search

section Leading

variable {E P L : Type} [Engine E] [Listener E P L] {allowed : L → Prop} {J : Run E P → Prop}
  (conducts : Listener.Conducts (E := E) (P := P) Run.Spares allowed) (stable : ∀ r r', J r → r.Spares r' → J r')

include conducts stable

theorem leads_announce_spared (event : Event) : Leads allowed J (announce event) fun _ => J := by
  apply ensures_announce_of_broadcast (K := Heeded allowed J) fun s hs =>
    ⟨hs.listeners, hs.reporter, stable _ _ hs.run (Run.Spares.licence.record _ _)⟩
  apply ensures_broadcast_of_calls (I := fun _ => Heeded allowed J)
  intro number s l hs there
  obtain ⟨listener, spared⟩ := conducts.tell Run.Spares.licence event s.run (hs.allowed_of_hearers there)
  exact ⟨fun _ => hs.heard_of listener (stable _ _ hs.run spared) number, fun _ _ => trivial⟩

theorem leads_pollProbe_spared : Leads allowed J (pollProbe : SearchM E P L Unit) fun _ => J := by
  apply Leads.bind (K := fun _ => J) (.update fun r hr => stable r _ hr (.of_eq rfl rfl rfl rfl rfl))
  intro requested
  cases requested with
  | true => exact leads_announce_spared conducts stable .searchProbed
  | false => exact .pure fun _ => id

theorem leads_announceViolation_spared [Property P] :
    Leads allowed J (announceViolation : SearchM E P L Unit) fun _ => J := by
  apply (leads_announce_spared conducts stable .propertyViolated).bind
  intro _
  apply Leads.look.bind
  intro goesOn
  cases goesOn with
  | true => exact .change fun r hr => stable r _ hr.1 (.of_eq rfl rfl rfl rfl rfl)
  | false => exact .pure fun _ hr => hr.1

end Leading

section Steps

variable {E P L : Type} {allowed : L → Prop} {n : Nat}

theorem leads_forward_hasRoom [Engine E] [Checkable E P] :
    Leads allowed (Run.HasRoom n) (forward : SearchM E P L Bool) fun _ => Run.HasRoom n := by
  -- The run forgets the violation of the step before, so it stays straight whether or not the search is done.
  apply Leads.bind (K := fun _ => Run.HasRoom n) (.change fun r hr => ⟨⟨hr.ahead, hr.config, by simp⟩, hr.room⟩)
  intro _
  apply Leads.bind (K := fun _ => Run.HasRoom n)
  · apply Leads.update
    intro r hr
    rw [Run.stepForward_eq]
    exact hr.spared (.of_eq rfl rfl rfl rfl rfl)
  intro advanced
  apply Leads.bind (K := fun _ => Run.HasRoom n) (.update fun r hr => hr.spared (.checkProperties r))
  exact fun _ => .pure fun _ => id

theorem leads_descend_hasRoom :
    Leads allowed (Run.HasRoom (n + 1)) (onRun Run.descend : SearchM E P L Unit) fun _ => Run.HasRoom n := by
  apply Leads.onRun
  apply Ensures.get
  intro r hr
  cases sum : addWords r.depth 1 with
  | error f => exact .throw fun _ _ => trivial
  | ok d =>
    obtain ⟨-, rfl⟩ := addWords_eq_ok.1 sum
    have room : r.depth + 1 + n ≤ r.config.depthLimit := by
      have := hr.room
      omega
    have lower : ({ r with depth := r.depth + 1 } : Run E P).HasRoom n :=
      ⟨⟨hr.ahead, hr.config, hr.violation⟩, room⟩
    exact .set (.pure fun _ eq => eq ▸ lower)

end Steps

end Search

section Iterations

variable {E P L : Type} [Engine E] [Checkable E P] [Listener E P L] {allowed : L → Prop} {n : Nat}
  (conducts : Listener.Conducts (E := E) (P := P) Run.Spares allowed) {s : Search E P L}

include conducts

open Search

/-- Where a simulation goes on, it has used up one iteration. -/
theorem Simulation.ensures_iterate : Ensures (Heeded allowed (Run.HasRoom (n + 1)))
    (iterate (E := E) (P := P) (L := L) ()) (Ensures.onTurn (fun _ => Heeded allowed (Run.HasRoom n)) fun _ _ => True)
    fun _ _ => True := by
  have spared (m : Nat) (r r' : Run E P) (hr : r.HasRoom m) : r.Spares r' → r'.HasRoom m := hr.spared
  have stopping {α : Type} {pre : Search E P L → Prop} (x : SearchM E P L α) (reason : α → StopReason) :
      Ensures pre (do return .stop (reason (← x)))
        (Ensures.onTurn (fun _ : Unit => Heeded allowed (Run.HasRoom n)) fun _ _ => True) fun _ _ => True := by
    intro s _
    simp only [bind, EStateM.bind]
    cases x s <;> trivial
  apply Ensures.bind (leads_pollProbe_spared conducts (spared _))
  intro _
  apply Ensures.bind leads_forward_hasRoom
  intro advanced
  cases advanced with
  | false => exact stopping settleDeadEnd id
  | true =>
    apply Ensures.bind leads_descend_hasRoom
    intro _
    apply Ensures.bind (leads_announce_spared conducts (spared n) .stateAdvanced)
    intro _
    apply Ensures.bind Leads.look
    intro violated
    cases violated with
    | true => exact stopping announceViolation fun _ => .propertyViolated
    | false =>
      apply Ensures.bind Leads.look
      intro e
      split
      · exact stopping (pure ()) fun _ => .endStateReached
      · exact .pure fun _ hs => hs.imp fun _ hr => hr.1.1

omit conducts [Engine E] [Checkable E P] [Listener E P L] in
theorem Search.update_takeBacktrackRequest (h : s.run.Straight) :
    update Run.takeBacktrackRequest s = .ok false s := by
  rw [update_apply, h.takeBacktrackRequest]

/-- Once a violation was announced, it still stands and ends the search. -/
theorem Search.bind_endsAtViolation {α : Type} (hs : s.Heeded allowed (Run.HasRoom n))
    (violated : s.run.atViolation = true) (f : Bool → SearchM E P L α) :
    (announceViolation >>= fun _ => update Run.endsAtViolation >>= f) s =
      (announceViolation >>= fun _ => f true) s := by
  have convicted : s.Heeded allowed Run.Convicted := ⟨hs.listeners, hs.reporter, hs.run.toStraight, violated⟩
  apply (leads_announceViolation_spared conducts fun _ _ => Run.Convicted.spared).bind_congr convicted
  intro _ t ht
  have ends : update Run.endsAtViolation t = .ok true t := by
    rw [update_apply, ht.run.endsAtViolation]
  exact EStateM.bind_of_ok ends

theorem Replay.iterate_eq (hs : s.Heeded allowed (Run.HasRoom (n + 1))) :
    iterate () s = Simulation.iterate () s := by
  have spared (m : Nat) (r r' : Run E P) (hr : r.HasRoom m) : r.Spares r' → r'.HasRoom m := hr.spared
  apply (leads_pollProbe_spared conducts (spared _)).bind_congr hs
  intro _ t ht
  refine (EStateM.bind_of_ok (update_takeBacktrackRequest ht.run.toStraight)).trans ?_
  apply leads_forward_hasRoom.bind_congr ht
  intro advanced u hu
  cases advanced with
  | false => rfl
  | true =>
    apply leads_descend_hasRoom.bind_congr hu
    intro _ v hv
    apply (leads_announce_spared conducts (spared n) .stateAdvanced).bind_congr hv
    intro _ w hw
    have seen : look (·.atViolation) w = .ok w.run.atViolation w := rfl
    simp only [settleViolation, bind_assoc]
    refine (EStateM.bind_of_ok seen).trans (Eq.trans ?_ (EStateM.bind_of_ok seen).symm)
    cases violated : w.run.atViolation with
    | false => rfl
    | true =>
      -- A replay asks whether the violation ends the search, a simulation takes that for granted.
      simp only [if_true, bind_assoc]
      exact bind_endsAtViolation conducts hw violated _

omit conducts in
/-- Above the depth limit, and if nobody asks to step back, an attempt is a step. -/
theorem RandomRestart.attempt_eq (hs : s.run.HasRoom (n + 1)) : attempt s =
    (do if ← forward then
          onRun Run.descend
          announce .stateAdvanced
          return Attempt.advanced
        else
          announce .stateProcessed
          return Attempt.halted) s := by
  have above : ¬ s.run.config.depthLimit ≤ s.run.depth := by
    have := hs.room
    omega
  have limit : look (·.config.depthLimit) s = .ok s.run.config.depthLimit s := rfl
  have depth : look (·.depth) s = .ok s.run.depth s := rfl
  refine (EStateM.bind_of_ok limit).trans ((EStateM.bind_of_ok depth).trans ?_)
  refine (EStateM.bind_of_ok (update_takeBacktrackRequest hs.toStraight)).trans ?_
  simp only [if_neg above]
  rfl

/-- A walk that came to its end is counted, unless a violation or a request to stop ended it. -/
def RandomRestart.closeWalk (reason : StopReason) : SearchM E P L StopReason :=
  match reason with
  | .deadEnd | .endStateReached => do
    change fun r => r.record (.walked 1 r.depth)
    return .pathLimitReached
  | reason => return reason

theorem RandomRestart.iterate_eq (start : Snapshot (Engine.Saved E))
    (hs : s.Heeded allowed (Run.HasRoom (n + 1))) :
    iterate 1 start 0 s = (Simulation.iterate () >>= Turn.closing closeWalk 0) s := by
  have spared (m : Nat) (r r' : Run E P) (hr : r.HasRoom m) : r.Spares r' → r'.HasRoom m := hr.spared
  simp only [Simulation.iterate, bind_assoc]
  apply (leads_pollProbe_spared conducts (spared _)).bind_congr hs
  intro _ t ht
  refine (EStateM.bind_congr_left (attempt_eq ht.run) _).trans ?_
  simp only [bind_assoc]
  apply leads_forward_hasRoom.bind_congr ht
  intro advanced u hu
  -- In both cases the violation is looked for once all were told of the step.
  cases advanced with
  | false =>
    simp only [settleDeadEnd, Bool.false_eq_true, if_false, bind_assoc]
    apply (leads_announce_spared conducts (spared _) .stateProcessed).bind_congr hu
    intro _ w hw
    have seen : look (·.atViolation) w = .ok w.run.atViolation w := rfl
    simp only [pure_bind]
    refine (EStateM.bind_of_ok seen).trans (Eq.trans ?_ (EStateM.bind_of_ok seen).symm)
    cases stands : w.run.atViolation with
    | true =>
      simp only [if_true, bind_assoc, pure_bind]
      exact bind_endsAtViolation conducts hw stands _
    | false => rfl
  | true =>
    simp only [if_true, bind_assoc]
    apply leads_descend_hasRoom.bind_congr hu
    intro _ v hv
    apply (leads_announce_spared conducts (spared n) .stateAdvanced).bind_congr hv
    intro _ w hw
    have seen : look (·.atViolation) w = .ok w.run.atViolation w := rfl
    simp only [pure_bind]
    refine (EStateM.bind_of_ok seen).trans (Eq.trans ?_ (EStateM.bind_of_ok seen).symm)
    cases stands : w.run.atViolation with
    | true =>
      simp only [if_true, bind_assoc, pure_bind]
      exact bind_endsAtViolation conducts hw stands _
    | false =>
      -- At an end state the walk is finished; otherwise both go on.
      have here : look (·.engine) w = .ok w.run.engine w := rfl
      simp only [Bool.false_eq_true, if_false, bind_assoc]
      refine (EStateM.bind_of_ok here).trans (Eq.trans ?_ (EStateM.bind_of_ok here).symm)
      cases Engine.isEnd w.run.engine <;> rfl

end Iterations

/-! ## Whole walks -/

/-- The entry tells of the strategy itself, and not of what it does to the search. -/
def Entry.isOfStrategy : Entry → Bool
  | .launched _ | .walked .. => true
  | _ => false

/-- What happened, whichever strategy was at work. -/
def Journal.course (j : Journal) : List Entry :=
  j.recent.filter fun e => !e.isOfStrategy

namespace Search

variable {E P L : Type}

/-- The searches came to the same point on the same course.  Whether states are matched, and what was answered
    on newness, may differ: a replay puts the matching of states back in force when it is over. -/
structure Concurs (s t : Search E P L) : Prop where
  listeners : t.listeners = s.listeners
  reporter : t.reporter = s.reporter
  run : ∃ matching query journal, t.run = { s.run with matching, lastQuery := query, journal }
  course : t.run.journal.course = s.run.journal.course

/-- The searches differ in their journals only, and there in what the strategies tell of themselves. -/
def Alongside (s t : Search E P L) : Prop :=
  ∃ j : Journal, t = s.withJournal j ∧ j.course = s.run.journal.course

theorem Alongside.concurs {s t : Search E P L} (h : s.Alongside t) : s.Concurs t := by
  obtain ⟨j, rfl, course⟩ := h
  exact ⟨rfl, rfl, ⟨s.run.matching, s.run.lastQuery, j, rfl⟩, course⟩

/-- What is blind to the journal does the same to both searches. -/
theorem tandem_of_blind {α : Type} {x : SearchM E P L α} (h : Blind withJournal x) :
    Tandem Alongside x x (fun _ => Alongside) Concurs := by
  rintro s _ ⟨j, rfl, course⟩
  obtain ⟨verdict, t, notes, done⟩ := h s
  have here : x s = resultOf verdict (t.withJournal (s.run.journal.extended notes)) := done s.run.journal
  have beside : (t.withJournal (s.run.journal.extended notes)).Alongside (t.withJournal (j.extended notes)) :=
    ⟨j.extended notes, rfl, by simpa [Journal.course, Journal.extended, withJournal, Run.withJournal] using course⟩
  rw [here, done j]
  cases verdict with
  | ok a => exact .ok beside
  | error f => exact .error beside.concurs

/-- The search after a strategy was launched. -/
def launched (strategy : String) (s : Search E P L) : Search E P L :=
  let j := if s.run.properties.isEmpty then s.run.journal.record .unguarded else s.run.journal
  { s with run := { s.run with matching := true, journal := j.record (.launched strategy) } }

/-- The search when a walk begins: states are not matched, and the depth is that of the start. -/
def outset (strategy : String) (s : Search E P L) : Search E P L :=
  { s with run := { (s.launched strategy).run.setMatching false with depth := 0 } }

theorem conduct_apply (strategy : String) (x : SearchM E P L StopReason) (s : Search E P L) :
    conduct strategy x s = (x >>= conclude) (s.launched strategy) := by
  refine EStateM.bind_of_ok (x := launch strategy) (a := ()) (t := s.launched strategy) ?_
  cases unguarded : s.run.properties.isEmpty <;> simp [launch, launched, bind, EStateM.bind, unguarded, Run.record]

theorem alongside_outset (strategy strategy' : String) (s : Search E P L) :
    (s.outset strategy).Alongside (s.outset strategy') :=
  ⟨(s.outset strategy').run.journal, rfl, rfl⟩

theorem heeded_outset {allowed : L → Prop} {s : Search E P L} {budget : Nat} (start : s.Heeded allowed Run.Straight)
    (unlimited : budget ≤ s.run.config.depthLimit) (strategy : String) :
    (s.outset strategy).Heeded allowed (Run.HasRoom budget) where
  listeners := start.listeners
  reporter := start.reporter
  run := ⟨⟨start.run.ahead, start.run.config, start.run.violation⟩, (Nat.zero_add budget).symm ▸ unlimited⟩

section Walk

variable [Engine E] [Checkable E P] [Listener E P L] {allowed : L → Prop} {budget : Nat}

/-- A simulation, with what is done when its loop is left and when everybody was told that it is over. -/
def walkOnce (close : StopReason → SearchM E P L StopReason) (tidy : Run E P → Run E P) (budget : Nat) :
    SearchM E P L Outcome := do
  announce .searchStarted
  let reason ← close (← loop (·.run.done) .terminated Simulation.iterate budget ())
  announce .searchFinished
  change tidy
  conclude reason

/-- A strategy whose loop is that of a simulation up to its close walks once. -/
theorem walkOnce_eq (conducts : Listener.Conducts (E := E) (P := P) Run.Spares allowed) {α : Type} {a : α}
    (iterate : α → SearchM E P L (Turn α StopReason)) {close : StopReason → SearchM E P L StopReason}
    {tidy : Run E P → Run E P} {s : Search E P L} (idle : close .terminated = pure .terminated)
    (same : ∀ n t, t.Heeded allowed (Run.HasRoom (n + 1)) →
      iterate a t = (Simulation.iterate () >>= Turn.closing close a) t)
    (hs : s.Heeded allowed (Run.HasRoom budget)) :
    (do announce .searchStarted
        let reason ← repeatUntilDone iterate budget a
        change tidy
        conclude reason) s = walkOnce close tidy budget s := by
  simp only [walkOnce, repeatUntilDone, bind_assoc, pure_bind]
  apply (leads_announce_spared conducts (fun _ _ => Run.HasRoom.spared) .searchStarted).bind_congr hs
  intro _ t ht
  have looped : loop (·.run.done) .terminated iterate budget a t =
      (loop (·.run.done) .terminated Simulation.iterate budget () >>= close) t :=
    loop_eq_bind (fun n => Heeded allowed (Run.HasRoom n)) (fun _ => rfl) idle
      (fun _ => Simulation.ensures_iterate conducts) same budget ht
  refine (EStateM.bind_congr_left looped _).trans ?_
  rw [bind_assoc]

end Walk

end Search

section Walks

variable {E P L : Type} [Engine E] [Checkable E P] [Listener E P L] {allowed : L → Prop} {budget : Nat}
  {s : Search E P L} (conducts : Listener.Conducts (E := E) (P := P) Run.Spares allowed)
  (start : s.Heeded allowed Run.Straight) (unlimited : budget ≤ s.run.config.depthLimit)

include conducts start unlimited

open Search

omit conducts start unlimited in
theorem Simulation.run_eq : run budget s = walkOnce pure id budget (s.outset "simulation") := by
  refine (conduct_apply _ _ s).trans ?_
  simp only [explore, walkOnce, repeatUntilDone, bind_assoc, pure_bind]
  rfl

theorem Replay.run_eq : run budget s = walkOnce pure (Run.setMatching true) budget (s.outset "path_replay") := by
  refine (conduct_apply _ _ s).trans ?_
  refine Eq.trans ?_ (walkOnce_eq conducts (a := ()) iterate rfl ?_ (heeded_outset start unlimited _))
  · simp only [explore, bind_assoc, pure_bind]
    rfl
  · intro n t ht
    rw [Replay.iterate_eq conducts ht, Turn.closing_pure, bind_pure]

theorem RandomRestart.run_eq {snapshot : Snapshot (Engine.Saved E)}
    (offered : Engine.snapshot? s.run.engine = some snapshot) (fromRoot : snapshot.pathLength = 0) :
    run 1 budget s = walkOnce closeWalk id budget (s.outset name) := by
  refine (conduct_apply _ _ s).trans ?_
  refine Eq.trans ?_ (walkOnce_eq conducts (a := 0) (iterate 1 snapshot) rfl ?_ (heeded_outset start unlimited _))
  · have here : look (·.engine) (s.launched name) = .ok s.run.engine (s.launched name) := rfl
    simp only [explore, bind_assoc]
    refine (EStateM.bind_of_ok here).trans ?_
    simp only [offered, bind_assoc, fromRoot]
    rfl
  · exact fun n t ht => RandomRestart.iterate_eq conducts snapshot ht

end Walks

/-! ## Agreement -/

section Agreement

variable {E P L : Type} [Engine E] [Checkable E P] [Listener E P L] {budget : Nat}

open Search

section Blindness

variable (ignores : Listener.IgnoresJournal E P L) (checks : Run.ChecksIgnoreJournal E P)

include ignores checks

theorem Simulation.blind_iterate : Blind withJournal (iterate () : SearchM E P L (Turn Unit StopReason)) := by
  apply (blind_pollProbe ignores).bind
  intro _
  apply (blind_forward checks).bind
  intro advanced
  cases advanced with
  | false => exact (blind_settleDeadEnd ignores).bind fun _ => .pure _
  | true =>
    apply blind_descend.bind
    intro _
    apply (blind_announce ignores .stateAdvanced).bind
    intro _
    apply (blind_look fun _ _ => rfl).bind
    intro violated
    cases violated with
    | true => exact (blind_announceViolation ignores).bind fun _ => .pure _
    | false =>
      apply (blind_look fun _ _ => rfl).bind
      intro e
      split
      · exact .pure _
      · exact .pure _

/-- Walks agree if what they do of their own agrees. -/
theorem Search.tandem_walkOnce {close close' : StopReason → SearchM E P L StopReason} {tidy tidy' : Run E P → Run E P}
    (closes : ∀ reason, Tandem Alongside (close reason) (close' reason) (fun _ => Alongside) Concurs)
    (tidies : ∀ s t : Search E P L, s.Alongside t →
      Concurs { s with run := tidy s.run } { t with run := tidy' t.run }) (budget : Nat) :
    Tandem Alongside (walkOnce close tidy budget) (walkOnce close' tidy' budget) (fun _ => Concurs) Concurs := by
  have looped : Blind withJournal
      (loop (·.run.done) .terminated Simulation.iterate budget () : SearchM E P L StopReason) := by
    apply Blind.loop
    · exact fun _ _ => rfl
    · exact fun _ => Simulation.blind_iterate ignores checks
  have tidied : Tandem Alongside (change tidy : SearchM E P L Unit) (change tidy') (fun _ => Concurs) Concurs :=
    fun s t alongside => .ok (tidies s t alongside)
  have concluded (reason : StopReason) :
      Tandem Concurs (conclude reason : SearchM E P L Outcome) (conclude reason) (fun _ => Concurs) Concurs := by
    rintro s ⟨run, listeners, reporter⟩ ⟨rfl, rfl, ⟨matching, query, journal, rfl⟩, course⟩
    exact .ok ⟨rfl, rfl, ⟨matching, query, journal, rfl⟩, course⟩
  apply (tandem_of_blind (blind_announce ignores .searchStarted)).bind
  intro _
  apply (tandem_of_blind looped).bind
  intro reason
  apply (closes reason).bind
  intro reason'
  apply (tandem_of_blind (blind_announce ignores .searchFinished)).bind
  intro _
  exact tidied.bind fun _ => concluded reason'

end Blindness

/-- The engine is at the start, with an empty path, and offers a snapshot of it. -/
def Engine.OffersStart (e : E) : Prop :=
  ∃ snapshot, Engine.snapshot? e = some snapshot ∧ snapshot.pathLength = Engine.pathLength e ∧ Engine.pathLength e = 0

/-- The reason for which a random restart stops when its only walk stops for this reason. -/
def StopReason.ofOnlyWalk : StopReason → StopReason
  | .deadEnd | .endStateReached => .pathLimitReached
  | reason => reason

/-- The outcome of a random restart whose only walk has this outcome. -/
def Outcome.ofOnlyWalk (o : Outcome) : Outcome :=
  { o with reason := o.reason.ofOnlyWalk }

/-- A replay does what a simulation does, and so does a random restart that walks once, but for the reason it
    gives: they make the same moves, announce the same events in the same order and come to the same point,
    whether they end or fail.  This is so for every engine that starts with an empty path and offers a snapshot,
    as long as the listeners leave the run on its course, nobody reads the journal and the depth limit is beyond
    what the budget can reach. -/
theorem single_walks_agree {allowed : L → Prop} {s : Search E P L}
    (conducts : Listener.Conducts (E := E) (P := P) Run.Spares allowed) (ignores : Listener.IgnoresJournal E P L)
    (checks : Run.ChecksIgnoreJournal E P) (start : s.Heeded allowed Run.Straight)
    (unlimited : budget ≤ s.run.config.depthLimit) (offers : Engine.OffersStart s.run.engine) :
    Matched (fun _ => Concurs) Concurs (Simulation.run budget s) (Replay.run budget s) ∧
      Matched (fun _ => Concurs) Concurs ((Outcome.ofOnlyWalk <$> Simulation.run budget) s)
        (RandomRestart.run 1 budget s) := by
  obtain ⟨snapshot, offered, length, empty⟩ := offers
  constructor
  · rw [Simulation.run_eq, Replay.run_eq conducts start unlimited]
    apply tandem_walkOnce ignores checks _ _ budget _ _ (s.alongside_outset ..)
    · exact fun _ => .pure fun _ _ h => h
    · rintro s _ ⟨j, rfl, course⟩
      exact ⟨rfl, rfl, ⟨true, none, j, rfl⟩, course⟩
  · have renamed : (Outcome.ofOnlyWalk <$> Simulation.run budget) s =
        walkOnce (fun reason => pure reason.ofOnlyWalk) id budget (s.outset "simulation") := by
      have mapped : (walkOnce (fun reason => pure reason.ofOnlyWalk) id budget : SearchM E P L Outcome) =
          Outcome.ofOnlyWalk <$> walkOnce pure id budget := by
        simp only [walkOnce, map_bind, pure_bind]
        rfl
      rw [mapped]
      simp only [Functor.map, EStateM.map, Simulation.run_eq]
    rw [renamed, RandomRestart.run_eq conducts start unlimited offered (length.trans empty)]
    apply tandem_walkOnce ignores checks _ _ budget _ _ (s.alongside_outset ..)
    · intro reason
      have counted : Tandem Alongside (pure .pathLimitReached : SearchM E P L StopReason)
          (do change fun r => r.record (.walked 1 r.depth)
              return .pathLimitReached) (fun _ => Alongside) Concurs := by
        rintro s _ ⟨j, rfl, course⟩
        exact .ok ⟨j.record (.walked 1 s.run.depth), rfl, course⟩
      cases reason with
      | deadEnd | endStateReached => exact counted
      | _ => exact .pure fun _ _ h => h
    · exact fun s t h => h.concurs

end Agreement

theorem Subject.ignoresJournal {E : Type} [Engine E] : Run.ChecksIgnoreJournal E Subject := by
  intro r j p
  cases p with
  | predicate name c => cases c <;> rfl
  | _ => rfl

/-- The walk ends in an end state, which a random restart tells as the end of all its walks. -/
theorem shortcut_single_walks_agree : ∃ e s, GraphEngine.ofGraph .shortcut = .ok e ∧
    Search.ofEngine e {} = .ok s ∧
    let t : Search GraphEngine Subject (RuleListener Subject) :=
      (s.addProperty (.forbidden { states := [5] })).addListener inquirer
    ∃ o u v w, Simulation.run 20 t = .ok o u ∧ o.reason = .endStateReached ∧ o.depth = 3 ∧
      Replay.run 20 t = .ok o v ∧ u.Concurs v ∧
      RandomRestart.run 1 20 t = .ok { o with reason := .pathLimitReached } w ∧ u.Concurs w := by
  refine ⟨_, .fresh _ {}, rfl, rfl, ?_⟩
  intro t
  have ended : ∃ o u, Simulation.run 20 t = .ok o u ∧ o.reason = .endStateReached ∧ o.depth = 3 :=
    exists_ok_of_check (by decide +kernel)
  obtain ⟨o, u, ran, reason, depth⟩ := ended
  have forward : inquirer.isForward := by
    simp [RuleListener.isForward, RuleListener.Obeys, inquirer, Deed.Obeys, Action.isForward]
  have start : t.Heeded RuleListener.isForward Run.Straight := by
    have listeners : t.listeners = [inquirer] := rfl
    have reporter : t.reporter = none := rfl
    have unviolated : t.run.atViolation = false := rfl
    exact ⟨by simpa [listeners] using forward, by simp [reporter], rfl, rfl, by simp [unviolated]⟩
  have unlimited : 20 ≤ t.run.config.depthLimit := by
    have limit : t.run.config.depthLimit = ({} : Config).depthLimit := rfl
    rw [limit]
    decide
  obtain ⟨replayed, restarted⟩ := single_walks_agree RuleListener.conducts_spares RuleListener.ignoresJournal
    Subject.ignoresJournal start unlimited ⟨_, rfl, rfl, rfl⟩
  have renamed : (Outcome.ofOnlyWalk <$> Simulation.run 20) t = .ok { o with reason := .pathLimitReached } u := by
    simp only [Functor.map, EStateM.map, ran, Outcome.ofOnlyWalk, reason]
    rfl
  rw [ran] at replayed
  rw [renamed] at restarted
  obtain ⟨v, replay, first⟩ := replayed.exists_ok
  obtain ⟨w, restart, second⟩ := restarted.exists_ok
  exact ⟨o, u, v, w, ran, reason, depth, replay, first, restart, second⟩

end Statewalk
