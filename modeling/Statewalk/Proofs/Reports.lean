import Mathlib.Order.Bounds.Basic
import Statewalk.Proofs.Metering
import Statewalk.Reporter

/-! # Reports

A reporter is told of every event after all listeners, keeps a tally that nobody else touches, and
collects its report when the end of the search is announced.  Whatever the strategy, that report agrees
with the outcome of the run and with what was announced.

* `Run.Noted` — all that a publisher can do to a run.
* `Run.Recounted` — what the statistics of one event do to a tally.
* `Tally.Totals` — the tally adds up what was announced.
* `Search.Staffed` — the reporter has its tally to itself.
-/

namespace Statewalk

variable {E P B L : Type}

/-! ## Publishers -/

/-- The second run is the first one with some notes, and perhaps with a request for a progress event. -/
def Run.Noted (r r' : Run E P) : Prop :=
  ∃ notes probe, r' = { r with
      journal := { recent := notes ++ r.journal.recent }
      probeRequested := probe } ∧ ∀ e ∈ notes, e.isNote = true

namespace Run.Noted

variable {r r' r'' : Run E P}

theorem refl (r : Run E P) : r.Noted r :=
  ⟨[], r.probeRequested, rfl, List.forall_mem_nil _⟩

theorem record {e : Entry} (r : Run E P) (note : e.isNote = true) : r.Noted (r.record e) :=
  ⟨[e], r.probeRequested, rfl, by simpa using note⟩

theorem trans (h : r.Noted r') (h' : r'.Noted r'') : r.Noted r'' := by
  obtain ⟨notes, probe, rfl, areNotes⟩ := h
  obtain ⟨notes', probe', rfl, areNotes'⟩ := h'
  refine ⟨notes' ++ notes, probe', by simp only [List.append_assoc], ?_⟩
  intro e member
  cases List.mem_append.1 member with
  | inl new => exact areNotes' e new
  | inr old => exact areNotes e old

theorem attended [Engine E] (h : r.Noted r') : r.Attended r' := by
  obtain ⟨notes, probe, rfl, areNotes⟩ := h
  refine { journal := ⟨notes, rfl, fun e member => ?_⟩ }
  have note := areNotes e member
  cases e <;> first | rfl | cases note

theorem collect_eq [Engine E] [Property P] (h : r.Noted r') (i : Nat) :
    Reporter.collect i r' = Reporter.collect i r := by
  obtain ⟨notes, probe, rfl, -⟩ := h
  rfl

end Run.Noted

/-- All that the publishers do to a run is to leave notes and to ask for progress events. -/
def Publisher.Discreet (E P B : Type) [Publisher E P B] : Prop :=
  ∀ (p : Publication P) (b : B) (r : Run E P),
    Ensures (· = (b, r)) (Publisher.publish p) (fun _ s => r.Noted s.2) fun _ s => r.Noted s.2

theorem Outlet.discreet [Engine E] [Property P] : Publisher.Discreet E P Outlet := by
  intro p b r
  cases b with
  | log b =>
    refine ensures_zoom rfl ?_
    rintro _ rfl
    exact .record r rfl
  | json b =>
    refine ensures_zoom rfl ?_
    cases p with
    | results report =>
      apply Ensures.get
      rintro _ rfl
      apply Ensures.set
      have wrote : r.Noted (r.record (.wrote b.sink (b.output report))) := .record r rfl
      split
      · exact .throw fun _ eq => eq ▸ wrote
      · exact .pure fun _ eq => eq ▸ wrote
    | _ => exact .pure fun _ eq => eq ▸ .refl r
  | record b =>
    refine ensures_zoom rfl ?_
    apply Ensures.get
    rintro _ rfl
    dsimp only
    split
    · exact .throw fun _ eq => eq ▸ .refl r
    · rintro _ rfl
      exact .record r rfl

/-! ## Tallies -/

/-- What the statistics make of a tally when they hear of an event at a depth.  Whether the state is
    new and whether it is an end state counts only when it was just entered. -/
def Statistics.reckon (event : Event) (depth : Nat) (isNew isEnd : Bool) (t : Tally) : Tally :=
  if event = .stateAdvanced then countState isNew isEnd (count event depth t) else count event depth t

/-- The counter of a tally for an event that is counted. -/
def Tally.counter : Event → Tally → Nat
  | .stateAdvanced, t => t.newStates + t.visitedStates
  | .stateProcessed, t => t.processed
  | .stateBacktracked, t => t.backtracked
  | .stateStored, t => t.stored
  | .stateRestored, t => t.restored
  | .propertyViolated, t => t.violations
  | .searchConstraintHit, t => t.constraints
  | .searchProbed, t => t.probes
  | .searchStarted, _ => 0
  | .searchFinished, _ => 0

/-- The event has a counter. -/
def Event.isCounted (event : Event) : Prop :=
  event ≠ .searchStarted ∧ event ≠ .searchFinished

theorem Tally.counts_counter {event : Event} (counted : event.isCounted) :
    Tally.Counts (Tally.counter event) event where
  other event' depth t other := by
    cases event with
    | searchStarted => exact absurd rfl counted.1
    | searchFinished => exact absurd rfl counted.2
    | _ => cases event' <;> first | rfl | exact absurd rfl other
  advanced depth isNew isEnd t := by
    cases event with
    | searchStarted => exact absurd rfl counted.1
    | searchFinished => exact absurd rfl counted.2
    | stateAdvanced =>
      cases isNew <;> cases isEnd <;>
        simp [Statistics.countState, Statistics.count, Tally.atDepth, Tally.counter, Event.tick] <;> omega
    | _ => cases isNew <;> cases isEnd <;> rfl

theorem Tally.Counts.reckon {reading : Tally → Nat} {counted : Event} (h : Tally.Counts reading counted)
    (event : Event) (depth : Nat) (isNew isEnd : Bool) (t : Tally) :
    reading (Statistics.reckon event depth isNew isEnd t) = counted.tick event (reading t) := by
  unfold Statistics.reckon
  split
  · rename_i advanced
    subst advanced
    exact h.advanced depth isNew isEnd t
  · rename_i other
    exact h.other event depth t other

/-- The depths that were told by announcements of certain events. -/
def depthsTold (tells : Event → Bool) (bs : List Bulletin) : Set Nat :=
  {d | ∃ b ∈ bs, tells b.event = true ∧ b.depth = d}

/-- The tally adds up the announcements. -/
structure Tally.Totals (bs : List Bulletin) (t : Tally) : Prop where
  counters : ∀ event : Event, event.isCounted → t.counter event = bs.countP (·.event = event)
  maxDepth : IsGreatest (depthsTold Event.tellsDepth bs) t.maxDepth

theorem depthsTold_append (tells : Event → Bool) (bs : List Bulletin) (b : Bulletin) :
    depthsTold tells (bs ++ [b]) =
      if tells b.event then insert b.depth (depthsTold tells bs) else depthsTold tells bs := by
  ext d
  cases told : tells b.event <;>
    simp [depthsTold, told, or_and_right, exists_or, or_comm, @eq_comm _ b.depth d]

theorem Statistics.maxDepth_reckon (event : Event) (depth : Nat) (isNew isEnd : Bool) (t : Tally)
    (later : event ≠ .searchStarted) : (reckon event depth isNew isEnd t).maxDepth =
      if event.tellsDepth || event = .searchFinished then max t.maxDepth depth else t.maxDepth := by
  cases event with
  | searchStarted => exact absurd rfl later
  | stateAdvanced => cases isNew <;> cases isEnd <;> rfl
  | _ => rfl

/-- The tally of an event that is counted is added to the total. -/
theorem Tally.Totals.reckon {bs : List Bulletin} {t : Tally} (h : Tally.Totals bs t) (b : Bulletin)
    (counted : b.event.isCounted) (isNew isEnd : Bool) :
    Tally.Totals (bs ++ [b]) (Statistics.reckon b.event b.depth isNew isEnd t) where
  counters event' counted' := by
    rw [(counts_counter counted').reckon, Event.tick, if_neg counted.1, h.counters event' counted',
      List.countP_append]
    by_cases same : b.event = event' <;> simp [same]
  maxDepth := by
    rw [Statistics.maxDepth_reckon _ _ _ _ _ counted.1, depthsTold_append]
    cases told : b.event.tellsDepth with
    | true =>
      rw [Nat.max_comm]
      exact h.maxDepth.insert b.depth
    | false => simpa [counted.2] using h.maxDepth

/-- The total begins with the start of the search. -/
theorem Tally.totals_start (b : Bulletin) (start : b.event = .searchStarted) (isNew isEnd : Bool)
    (t : Tally) : Tally.Totals [b] (Statistics.reckon b.event b.depth isNew isEnd t) where
  counters event counted := by
    rw [(counts_counter counted).reckon, Event.tick, if_pos start]
    simp [start, counted.1.symm]
  maxDepth := by
    have told : depthsTold Event.tellsDepth [b] = {b.depth} := by
      ext d
      simp [depthsTold, start, Event.tellsDepth]
    have depth : (Statistics.reckon b.event b.depth isNew isEnd t).maxDepth = b.depth := by
      rw [start]
      exact Nat.zero_max b.depth
    rw [told, depth]
    exact isGreatest_singleton

namespace Run

variable [Engine E] {i : Nat} {event : Event} {r r' r'' : Run E P}

omit [Engine E] in
theorem tally_modifyTally (f : Tally → Tally) (there : i < r.tallies.length) :
    (r.modifyTally i f).tally i = f (r.tally i) := by
  simp [tally, modifyTally, there]

/-- Restrained listeners were told of an event and left the tally alone. -/
structure Spared (i : Nat) (r r' : Run E P) : Prop where
  attended : r.Attended r'
  size : r'.tallies.length = r.tallies.length
  tally : r'.tally i = r.tally i

theorem Spared.of_tallies (attended : r.Attended r') (tallies : r'.tallies = r.tallies) : Spared i r r' :=
  ⟨attended, by rw [tallies], by rw [Run.tally, Run.tally, tallies]⟩

theorem Spared.trans (h : Spared i r r') (h' : Spared i r' r'') : Spared i r r'' :=
  ⟨h.attended.trans h'.attended, h'.size.trans h.size, h'.tally.trans h.tally⟩

theorem Spared.record {e : Entry} (h : Spared i r r') (aside : e.isAside = true) :
    Spared i r (r'.record e) :=
  h.trans (.of_tallies (.record r' aside) rfl)

theorem Calls.spared (h : r.Calls (· ≠ i) r') : Spared i r r' := by
  induction h with
  | refl => exact .of_tallies (.refl r) rfl
  | tail _ last ih =>
    apply ih.trans
    have attended := Attended.call last
    cases last with
    | ask asked => exact .of_tallies attended (Silent.isNew asked).tallies
    | gauge => exact .of_tallies attended (Silent.hasMemory _).tallies
    | tally f r other =>
      refine ⟨attended, by simp [modifyTally], ?_⟩
      simp [Run.tally, modifyTally, other]
    | _ => exact .of_tallies attended rfl

/-- The statistics were told of an event and brought the tally up to date. -/
structure Recounted (i : Nat) (event : Event) (r r' : Run E P) : Prop where
  attended : r.Attended r'
  size : r'.tallies.length = r.tallies.length
  tally : i < r.tallies.length →
    ∃ isNew isEnd, r'.tally i = Statistics.reckon event r.depth isNew isEnd (r.tally i)

theorem Recounted.noted (h : Recounted i event r r') (noted : r'.Noted r'') : Recounted i event r r'' := by
  have attended := h.attended.trans noted.attended
  obtain ⟨notes, probe, rfl, -⟩ := noted
  exact ⟨attended, h.size, h.tally⟩

/-- The listeners are told first, then the statistics. -/
theorem Spared.recounted (h : Spared i r r') (h' : Recounted i event r' r'') : Recounted i event r r'' where
  attended := h.attended.trans h'.attended
  size := h'.size.trans h.size
  tally there := by
    obtain ⟨isNew, isEnd, tally⟩ := h'.tally (h.size ▸ there)
    rw [h.attended.depth, h.tally] at tally
    exact ⟨isNew, isEnd, tally⟩

end Run

theorem Statistics.recounted_update [Engine E] {i : Nat} {event : Event} {r r' : Run E P}
    (done : Statistics.update i event r = .ok () r') : r.Recounted i event r' := by
  have polite : RunM.Polite (fun _ => True) (Statistics.update (E := E) (P := P) i event) :=
    polite_update trivial event
  have calls := (polite r).of_ok .refl done
  obtain ⟨rfl, answer, after, asked, rfl⟩ | ⟨advanced, rfl⟩ := cases_of_update done
  · have tallies := (Run.Silent.isNew asked).tallies
    refine ⟨.calls calls, by simp [Run.modifyTally, tallies], fun there => ?_⟩
    refine ⟨answer, Engine.isEnd after.engine, ?_⟩
    rw [Run.tally_modifyTally _ (by simpa [Run.modifyTally, tallies] using there), Run.tally, tallies]
    show countState _ _ ((r.modifyTally i _).tally i) = _
    rw [Run.tally_modifyTally _ there]
    rfl
  · refine ⟨.calls calls, by simp [Run.modifyTally], fun there => ⟨false, false, ?_⟩⟩
    rw [Run.tally_modifyTally _ there, reckon, if_neg advanced]

/-! ## Reporters -/

namespace Reporter

variable [Publisher E P B] {I K : Reporter B × Run E P → Prop} {F : Reporter B × Run E P → Prop}

/-- The statement is not about the publishers, the timer and the last report of a reporter, nor about
    notes. -/
def Indifferent (I : Reporter B × Run E P → Prop) : Prop :=
  ∀ m m' r r', I (m, r) → m'.tally = m.tally → r.Noted r' → I (m', r')

section Parts

omit [Publisher E P B]

theorem ensures_startTimer (indifferent : Indifferent I) : Ensures I startTimer (fun _ => I) fun _ => F := by
  apply Ensures.get
  rintro ⟨m, r⟩ h
  dsimp only
  split
  · exact .pure fun _ eq => eq ▸ h
  · rename_i ms _
    rintro _ rfl
    have started : r.Noted (r.record (.timerStarted ms)) := .record r rfl
    refine indifferent m _ r _ h rfl ?_
    split
    · exact started.trans (.record _ rfl)
    · exact started

theorem ensures_stopTimer (indifferent : Indifferent I) : Ensures I stopTimer (fun _ => I) fun _ => F := by
  apply Ensures.get
  rintro ⟨m, r⟩ h
  dsimp only
  split
  · rintro _ rfl
    exact indifferent m _ r _ h rfl (.record r rfl)
  · exact .pure fun _ eq => eq ▸ h

end Parts

variable (discreet : Publisher.Discreet E P B)

include discreet

theorem noted_publishAll (p : Publication P) (bs : List B) (r : Run E P) :
    r.Noted (publishAll p bs r).run := by
  induction bs generalizing r with
  | nil => exact .refl r
  | cons b bs ih =>
    have published := discreet p b r _ rfl
    simp only [publishAll]
    cases result : Publisher.publish p (b, r) with
    | error f s =>
      rw [result] at published
      exact published
    | ok _ s =>
      rw [result] at published
      exact published.trans (ih s.2)

theorem ensures_publish (indifferent : Indifferent I) (p : Publication P) :
    Ensures I (publish p) (fun _ => I) fun _ => I := by
  rintro ⟨m, r⟩ h
  have noted := noted_publishAll discreet p m.publishers r
  simp only [publish]
  cases (publishAll p m.publishers r).verdict with
  | ok _ => exact indifferent m _ r _ h rfl noted
  | error f => exact indifferent m _ r _ h rfl noted

variable [Engine E] [Property P]

/-- The report is on the run as it is when the publishers have it. -/
theorem ensures_finish (indifferent : Indifferent I) :
    Ensures I finish (fun _ s => I s ∧ s.1.lastReport = some (collect s.1.tally s.2)) fun _ => I := by
  rintro ⟨m, r⟩ h
  have published := (ensures_publish discreet indifferent (.results (collect m.tally r))) (m, r) h
  have noted := noted_publishAll discreet (.results (collect m.tally r)) m.publishers r
  simp only [finish, publish] at published ⊢
  cases verdict : (publishAll (.results (collect m.tally r)) m.publishers r).verdict with
  | ok _ =>
    refine ⟨indifferent m _ r _ h rfl noted, ?_⟩
    exact congrArg some (noted.collect_eq m.tally).symm
  | error f => exact indifferent m _ r _ h rfl noted

/-- Whatever the event, the tally is brought up to date and the rest goes to the publishers.  At the
    end of the search there is a report. -/
theorem ensures_hear {event : Event} (before : Indifferent I) (after : Indifferent K)
    (counted : Ensures I (keepTally event) (fun _ => K) fun _ => F) (failed : ∀ s, K s → F s) :
    Ensures I (hear event)
      (fun _ s => K s ∧ (event = .searchFinished → s.1.lastReport = some (collect s.1.tally s.2)))
      fun _ => F := by
  have published (p : Publication P) : Ensures K (publish p) (fun _ => K) fun _ => F :=
    (ensures_publish discreet after p).imp_fail fun _ s => failed s
  have other {x : ReporterM E P B Unit} (h : Ensures I x (fun _ => K) fun _ => F)
      (unfinished : event ≠ .searchFinished) : Ensures I x
        (fun _ s => K s ∧ (event = .searchFinished → s.1.lastReport = some (collect s.1.tally s.2)))
        fun _ => F :=
    h.imp fun _ s hs => ⟨hs, fun finished => absurd finished unfinished⟩
  cases event with
  | searchStarted =>
    refine other ?_ (by decide)
    apply counted.bind
    intro _
    have forgotten : Ensures K (modify fun s : Reporter B × Run E P => ({ s.1 with lastReport := none }, s.2))
        (fun _ => K) fun _ => F :=
      .modifying fun s h => after s.1 _ s.2 _ h rfl (.refl _)
    apply Ensures.bind forgotten
    intro _
    apply Ensures.bind (ensures_startTimer after)
    exact fun _ => published .start
  | stateAdvanced =>
    refine other ?_ (by decide)
    exact counted.bind fun _ => published .transition
  | propertyViolated =>
    refine other ?_ (by decide)
    apply counted.bind
    intro _
    apply Ensures.get
    rintro ⟨m, r⟩ h
    dsimp only
    split
    · exact (published _).of_eq h
    · exact .pure fun _ eq => eq ▸ h
  | searchConstraintHit =>
    refine other ?_ (by decide)
    apply counted.bind
    intro _
    apply Ensures.get
    rintro ⟨m, r⟩ h
    exact (published _).of_eq h
  | searchProbed =>
    refine other ?_ (by decide)
    apply counted.bind
    intro _
    apply Ensures.get
    rintro ⟨m, r⟩ h
    exact (published _).of_eq h
  | searchFinished =>
    apply Ensures.bind (ensures_stopTimer before)
    intro _
    apply counted.bind
    intro _
    apply ((ensures_finish discreet after).imp_fail fun _ s => failed s).imp
    exact fun _ s h => ⟨h.1, fun _ => h.2⟩
  | _ => exact other counted (by decide)

end Reporter

/-! ## Listeners -/

namespace Listener

variable [Engine E] [Listener E P L]

/-- A listener of the one kind is told of an event as one of the other kind. -/
def Wraps (E P : Type) {M L : Type} [Listener E P M] [Listener E P L] (wrap : M → L) : Prop :=
  ∀ (event : Event) (m : M) (r : Run E P), hear event (wrap m, r) = zoom wrap m (hear event) r

/-- The allowed listeners only make calls, and leave the tally alone. -/
def LeavesTally (E P : Type) {L : Type} [Engine E] [Listener E P L] (i : Nat) (allowed : L → Prop) : Prop :=
  ∀ (event : Event) (l : L) (r : Run E P), allowed l →
    Ensures (· = (l, r)) (hear event) (fun _ s => allowed s.1 ∧ r.Calls (· ≠ i) s.2)
      fun _ s => allowed s.1 ∧ r.Calls (· ≠ i) s.2

theorem LeavesTally.maintains {i : Nat} {allowed : L → Prop} (leaves : LeavesTally E P i allowed)
    (r₀ : Run E P) : Maintains allowed (r₀.Spared i) := by
  intro event l r hl spared
  apply ((leaves event l r hl).imp ?_).imp_fail
  · exact fun _ s h => ⟨h.1, spared.trans (Run.Calls.spared h.2)⟩
  · exact fun _ s h => ⟨h.1, spared.trans (Run.Calls.spared h.2)⟩

/-! ### Reporters among them -/

variable [Property P] [Publisher E P B] {wrap : Reporter B → L} (wraps : Wraps E P wrap)
  (discreet : Publisher.Discreet E P B)

include discreet

omit [Listener E P L] in
theorem ensures_hear_reporter (event : Event) (m : Reporter B) (r : Run E P) :
    Ensures (· = (m, r)) (hear event)
      (fun _ s => (s.1.tally = m.tally ∧ r.Recounted m.tally event s.2) ∧
        (event = .searchFinished → s.1.lastReport = some (Reporter.collect s.1.tally s.2)))
      fun _ s => r.Attended s.2 := by
  let I : Reporter B × Run E P → Prop := fun s => s.1.tally = m.tally ∧ r.Noted s.2
  let K : Reporter B × Run E P → Prop := fun s => s.1.tally = m.tally ∧ r.Recounted m.tally event s.2
  have before : Reporter.Indifferent I :=
    fun _ _ _ _ h same noted => ⟨same.trans h.1, h.2.trans noted⟩
  have after : Reporter.Indifferent K :=
    fun _ _ _ _ h same noted => ⟨same.trans h.1, h.2.noted noted⟩
  have counted : Ensures I (Reporter.keepTally event) (fun _ => K) fun _ s => r.Attended s.2 := by
    apply Ensures.get
    rintro ⟨m', r'⟩ ⟨same, noted⟩ _ rfl
    have spared : r.Spared m.tally r' := by
      have attended := noted.attended
      obtain ⟨notes, probe, rfl, -⟩ := noted
      exact .of_tallies attended rfl
    have polite : RunM.Polite (fun _ => True) (Statistics.update (E := E) (P := P) m'.tally event) :=
      Statistics.polite_update trivial event
    have updated := polite r' r' .refl
    simp only [Listener.onRun]
    cases done : Statistics.update (E := E) (P := P) m'.tally event r' with
    | ok _ r'' =>
      have recounted := Statistics.recounted_update done
      rw [same] at recounted
      exact ⟨same, spared.recounted recounted⟩
    | error f r'' =>
      rw [done] at updated
      exact spared.attended.trans (.calls updated.1)
  have heard := Reporter.ensures_hear discreet before after counted fun s h => h.2.attended
  exact heard.of_eq ⟨rfl, .refl r⟩

include wraps

theorem tell_reporter {event : Event} {m : Reporter B} {r : Run E P}
    (told : (tell event (wrap m) r).verdict = .ok ()) :
    ∃ m', (tell event (wrap m) r).listener = wrap m' ∧ m'.tally = m.tally ∧
      r.Recounted m.tally event (tell event (wrap m) r).run ∧
      (event = .searchFinished →
        m'.lastReport = some (Reporter.collect m.tally (tell event (wrap m) r).run)) := by
  have called : r.Spared m.tally (r.record (.called (Named.name (wrap m)) event)) :=
    .of_tallies (.record r rfl) rfl
  have answer := ensures_hear_reporter discreet event m (r.record (.called (Named.name (wrap m)) event)) _ rfl
  unfold tell at told ⊢
  rw [wraps, zoom] at told ⊢
  cases heard : hear event (m, r.record (.called (Named.name (wrap m)) event)) with
  | error f s =>
    rw [heard] at told
    cases told
  | ok _ s =>
    rw [heard] at answer
    obtain ⟨⟨tally, recounted⟩, report⟩ := answer
    rw [tally] at report
    exact ⟨s.1, rfl, tally, called.recounted recounted, report⟩

end Listener

/-! ## Searches -/

namespace Search

variable {wrap : Reporter B → L} {allowed : L → Prop} {i : Nat} {s t : Search E P L}
  {base : List Bulletin}

/-- All listeners are allowed, and the reporter keeps a tally of the run. -/
structure Staffed (wrap : Reporter B → L) (allowed : L → Prop) (i : Nat) (s : Search E P L) : Prop where
  listeners : ∀ l ∈ s.listeners, allowed l
  reporter : ∃ m, s.reporter = some (wrap m) ∧ m.tally = i
  tally : i < s.run.tallies.length

theorem Staffed.quiet (h : s.Staffed wrap allowed i) (quiet : Quiet s t) : t.Staffed wrap allowed i :=
  ⟨quiet.listeners ▸ h.listeners, quiet.reporter ▸ h.reporter, quiet.run.tallies ▸ h.tally⟩

/-- The tally adds up what was announced after the given bulletins. -/
structure Kept (wrap : Reporter B → L) (allowed : L → Prop) (i : Nat) (base news : List Bulletin)
    (s : Search E P L) : Prop where
  staffed : s.Staffed wrap allowed i
  bulletins : s.run.journal.bulletins = base ++ news
  unfinished : ∀ b ∈ news, b.event ≠ .searchFinished
  totals : (s.run.tally i).Totals news

theorem Kept.quiet {news : List Bulletin} (h : s.Kept wrap allowed i base news) (quiet : Quiet s t) :
    t.Kept wrap allowed i base news where
  staffed := h.staffed.quiet quiet
  bulletins := quiet.run.bulletins.trans h.bulletins
  unfinished := h.unfinished
  totals := by
    rw [Run.tally, quiet.run.tallies]
    exact h.totals

/-- The depth was told by an announcement. -/
def DepthTold (news : List Bulletin) (s : Search E P L) : Prop :=
  s.run.depth ∈ depthsTold Event.tellsDepth news

variable [Engine E] [Property P]

/-- The report is on the run as it is, and its tally adds up what was announced up to its end. -/
structure Closed (wrap : Reporter B → L) (i : Nat) (base : List Bulletin) (s : Search E P L) : Prop where
  report : ∃ m, s.reporter = some (wrap m) ∧ m.lastReport = some (Reporter.collect i s.run)
  books : ∃ news last, s.run.journal.bulletins = base ++ (news ++ [last]) ∧
    (∀ b ∈ news, b.event ≠ .searchFinished) ∧ last.event = .searchFinished ∧ last.depth = s.run.depth ∧
    s.DepthTold news ∧ ∃ t, t.Totals news ∧
    ∃ isNew isEnd, s.run.tally i = Statistics.reckon .searchFinished s.run.depth isNew isEnd t

variable [Listener E P L] [Publisher E P B]

/-- What becomes of a search when an event was announced. -/
structure Informed (wrap : Reporter B → L) (allowed : L → Prop) (i : Nat) (event : Event)
    (s t : Search E P L) : Prop where
  staffed : t.Staffed wrap allowed i
  depth : t.run.depth = s.run.depth
  bulletins : t.run.journal.bulletins = s.run.journal.bulletins ++ [s.bulletin event]
  tally : ∃ isNew isEnd, t.run.tally i = Statistics.reckon event s.run.depth isNew isEnd (s.run.tally i)
  report : event = .searchFinished →
    ∃ m, t.reporter = some (wrap m) ∧ m.lastReport = some (Reporter.collect i t.run)

variable (wraps : Listener.Wraps E P wrap) (discreet : Publisher.Discreet E P B)
  (leaves : Listener.LeavesTally E P i allowed)

include wraps discreet leaves

theorem ensures_announce_informed (h : s.Staffed wrap allowed i) (event : Event) :
    Ensures (· = s) (announce event) (fun _ => Informed wrap allowed i event s) fun _ _ => True := by
  obtain ⟨run, listeners, reporter⟩ := s
  obtain ⟨hlisteners, ⟨m, rfl, rfl⟩, there⟩ := h
  let entered : Run E P := run.record (.announced (bulletin event ⟨run, listeners, some (wrap m)⟩))
  have bulletins : entered.journal.bulletins =
      run.journal.bulletins ++ [bulletin event ⟨run, listeners, some (wrap m)⟩] := by
    simp [entered, Run.record, Entry.bulletin?]
  apply ensures_announce_of_broadcast (K := (· = ⟨entered, listeners, some (wrap m)⟩))
    fun _ eq => eq ▸ rfl
  rintro _ rfl
  obtain ⟨others, spared⟩ := Listener.tellAll_maintains (leaves.maintains entered)
    (fun _ _ spared => spared.record) event hlisteners (.of_tallies (.refl entered) rfl)
  simp only [broadcast]
  cases (Listener.tellAll event listeners entered).verdict with
  | error f => trivial
  | ok _ =>
    simp only
    cases verdict : (Listener.tell event (wrap m) (Listener.tellAll event listeners entered).run).verdict with
    | error f => trivial
    | ok _ =>
      obtain ⟨m', listener, same, last, report⟩ := Listener.tell_reporter wraps discreet verdict
      have recounted := spared.recounted last
      refine ⟨⟨others, ⟨m', by rw [listener], same⟩, ?_⟩, recounted.attended.depth,
        recounted.attended.bulletins.trans bulletins, recounted.tally there, fun finished => ?_⟩
      · rw [recounted.size]
        exact there
      · exact ⟨m', by rw [listener], report finished⟩

/-- Everything but the start and the end of a search is added to the total. -/
theorem ensures_announce_kept {news : List Bulletin} (h : s.Kept wrap allowed i base news) {event : Event}
    (counted : event.isCounted) :
    Ensures (· = s) (announce event)
      (fun _ t => t.Kept wrap allowed i base (news ++ [s.bulletin event]) ∧ t.run.depth = s.run.depth)
      fun _ _ => True := by
  apply (ensures_announce_informed wraps discreet leaves h.staffed event).imp
  intro _ t informed
  obtain ⟨isNew, isEnd, tally⟩ := informed.tally
  refine ⟨⟨informed.staffed, ?_, ?_, ?_⟩, informed.depth⟩
  · rw [informed.bulletins, h.bulletins, List.append_assoc]
  · intro b member
    cases List.mem_append.1 member with
    | inl old => exact h.unfinished b old
    | inr new => exact List.mem_singleton.1 new ▸ counted.2
  · rw [tally]
    exact h.totals.reckon (s.bulletin event) counted isNew isEnd

/-- A search whose reporter has its tally to itself keeps books on what it announces. -/
theorem bookkeeping (base : List Bulletin) :
    Bookkeeping (E := E) (P := P) (L := L)
      (fun s => s.Staffed wrap allowed i ∧ s.run.journal.bulletins = base)
      (fun s => ∃ news, s.Kept wrap allowed i base news)
      (fun s => ∃ news, s.Kept wrap allowed i base news ∧ s.DepthTold news)
      (Closed wrap i base) where
  prepare s t h quiet := ⟨h.1.quiet quiet, quiet.run.bulletins.trans h.2⟩
  await := by
    rintro s t ⟨news, h⟩ quiet
    exact ⟨news, h.quiet quiet⟩
  unsettle := by
    rintro s ⟨news, h, -⟩
    exact ⟨news, h⟩
  quiet := by
    rintro s t ⟨news, h, told⟩ quiet depth
    refine ⟨news, h.quiet quiet, ?_⟩
    rwa [DepthTold, depth]
  start := by
    rintro s ⟨staffed, bulletins⟩
    apply ((ensures_announce_informed wraps discreet leaves staffed .searchStarted).imp ?_) s rfl
    intro _ t informed
    obtain ⟨isNew, isEnd, tally⟩ := informed.tally
    refine ⟨[s.bulletin .searchStarted], ⟨informed.staffed, ?_, ?_, ?_⟩, ?_⟩
    · rw [informed.bulletins, bulletins]
    · simp [bulletin]
    · rw [tally]
      exact Tally.totals_start (s.bulletin .searchStarted) rfl isNew isEnd _
    · exact ⟨_, List.mem_singleton_self _, rfl, informed.depth.symm⟩
  tell := by
    rintro event tells later s ⟨news, h⟩
    have counted : event.isCounted := ⟨later, fun finished => by rw [finished] at tells; cases tells⟩
    apply ((ensures_announce_kept wraps discreet leaves h counted).imp ?_) s rfl
    rintro _ t ⟨kept, depth⟩
    exact ⟨_, kept, _, List.mem_append_right _ (List.mem_singleton_self _), tells, depth.symm⟩
  remark := by
    rintro event silent unfinished s ⟨news, h, b, member, tells, depth⟩
    have counted : event.isCounted := ⟨fun start => (by rw [start] at silent; cases silent), unfinished⟩
    apply ((ensures_announce_kept wraps discreet leaves h counted).imp ?_) s rfl
    rintro _ t ⟨kept, same⟩
    exact ⟨_, kept, b, List.mem_append_left _ member, tells, depth.trans same.symm⟩
  finish := by
    rintro s ⟨news, h, told⟩
    apply ((ensures_announce_informed wraps discreet leaves h.staffed .searchFinished).imp ?_) s rfl
    intro _ t informed
    obtain ⟨isNew, isEnd, tally⟩ := informed.tally
    refine ⟨informed.report rfl, news, s.bulletin .searchFinished, ?_, h.unfinished, rfl,
      informed.depth.symm, ?_, s.run.tally i, h.totals, isNew, isEnd, ?_⟩
    · rw [informed.bulletins, h.bulletins, List.append_assoc]
    · rwa [DepthTold, informed.depth]
    · rwa [informed.depth]
  close s done matching query h := ⟨h.report, h.books⟩

end Search

/-! ## Numbers of violations -/

namespace Run

variable [Engine E] {r r' : Run E P}

/-- The violations are numbered in the order in which they were recorded. -/
def Numbered (r : Run E P) : Prop :=
  r.violations.map Violation.id = List.range' 1 r.violations.length

omit [Engine E] in
theorem Numbered.congr (h : r.Numbered) (same : r'.violations = r.violations) : r'.Numbered := by
  rwa [Numbered, same]

theorem Numbered.checkProperties [Checkable E P] (h : r.Numbered) : r.checkProperties.2.Numbered := by
  unfold Run.checkProperties
  split
  split
  · -- The new one comes last and has the next number.
    rw [Numbered] at h ⊢
    simp only [violate, Run.record, List.map_append, List.map_cons, List.map_nil, List.length_append,
      List.length_singleton, h]
    rw [List.range'_1_concat, Nat.add_comm]
  · exact h

end Run

section Agreement

variable {H : Type} [Engine E] [Checkable E P] [Listener E P L] [Publisher E P B] [Heuristic H E P]
  {wrap : Reporter B → L} {allowed : L → Prop} {i : Nat} (wraps : Listener.Wraps E P wrap)
  (discreet : Publisher.Discreet E P B) (leaves : Listener.LeavesTally E P i allowed)

include wraps discreet leaves

omit [Heuristic H E P] in
theorem Listener.maintains_numbered :
    Listener.Maintains (E := E) (P := P) (fun l => allowed l ∨ ∃ m, l = wrap m) Run.Numbered := by
  rintro event l r (hl | ⟨m, rfl⟩) numbered
  · have kept {l' : L} {r' : Run E P} (h : allowed l' ∧ r.Calls (· ≠ i) r') :
        (allowed l' ∨ ∃ m, l' = wrap m) ∧ r'.Numbered :=
      ⟨.inl h.1, numbered.congr (Run.Attended.calls h.2).violations⟩
    exact ((leaves event l r hl).imp fun _ _ => kept).imp_fail fun _ _ => kept
  · refine ensures_zoom (wraps event m r) ?_
    have kept {s : Reporter B × Run E P} (h : r.Attended s.2) :
        (allowed (wrap s.1) ∨ ∃ m, wrap s.1 = wrap m) ∧ s.2.Numbered :=
      ⟨.inr ⟨s.1, rfl⟩, numbered.congr h.violations⟩
    exact ((ensures_hear_reporter discreet event m r).imp fun _ _ h => kept h.1.2.attended).imp_fail
      fun _ _ => kept

/-- Violations stay numbered. -/
theorem Strategy.ensures_numbered (a : Strategy H E) (budget : Nat) :
    Ensures (Search.Heeded (fun l => allowed l ∨ ∃ m, l = wrap m) Run.Numbered) (a.run budget)
      (fun _ (t : Search E P L) => t.run.Numbered) fun _ _ => True := by
  have maintains := Listener.maintains_numbered wraps discreet leaves
  have discipline : Discipline (E := E) (P := P) (L := L)
      (fun _ => Search.Heeded (fun l => allowed l ∨ ∃ m, l = wrap m) Run.Numbered)
      (Search.Heeded (fun l => allowed l ∨ ∃ m, l = wrap m) Run.Numbered) fun _ _ => True := by
    apply Discipline.of_kept
    · intro o s t does h
      have same {r : Run E P} (violations : r.violations = s.run.violations) :
          Search.Heeded (fun l => allowed l ∨ ∃ m, l = wrap m) Run.Numbered { s with run := r } :=
        ⟨h.listeners, h.reporter, h.run.congr violations⟩
      cases does with
      | turn => exact h
      | forward =>
        rw [Run.stepForward_eq]
        exact same rfl
      | check => exact ⟨h.listeners, h.reporter, h.run.checkProperties⟩
      | call event there =>
        obtain ⟨listener, run⟩ := Listener.tell_maintains maintains (fun _ _ numbered _ => numbered)
          event (h.allowed_of_hearers there) h.run
        exact h.heard_of listener run _
      | chore chore => exact same chore.violations
      | _ => exact same rfl
    · exact fun _ _ _ _ _ _ _ _ => trivial
    · exact fun _ _ _ _ => trivial
  exact (Strategy.ensures_run discipline (fun _ _ => trivial) a budget).imp fun _ _ h => h.1.run

end Agreement

/-! ## The report and the run -/

/-- The report agrees with the outcome of a run, with the run itself and with what was announced. -/
structure Report.Agrees [Engine E] [Property P] (o : Outcome) (r : Run E P) (news : List Bulletin)
    (report : Report) : Prop where
  depth : report.depth = o.depth
  constraint : report.constraint = o.lastConstraint
  errors : report.errors = r.summaries
  length : report.errors.length = o.errors
  advanced : report.tally.newStates + report.tally.visitedStates = news.countP (·.event = .stateAdvanced)
  backtracked : report.tally.backtracked = news.countP (·.event = .stateBacktracked)
  processed : report.tally.processed = news.countP (·.event = .stateProcessed)
  stored : report.tally.stored = news.countP (·.event = .stateStored)
  restored : report.tally.restored = news.countP (·.event = .stateRestored)
  constraints : report.tally.constraints = news.countP (·.event = .searchConstraintHit)
  violations : report.tally.violations = news.countP (·.event = .propertyViolated)
  probes : report.tally.probes = news.countP (·.event = .searchProbed)
  tallyDepth : report.tally.depth = report.depth
  maxDepth : IsGreatest (depthsTold Event.tellsDepth news) report.tally.maxDepth
  /-- The end of a search tells no depth that was not told before. -/
  finished : IsGreatest (depthsTold (fun event => event.tellsDepth || event = .searchFinished) news)
    report.tally.maxDepth

/-- The end of a search adds nothing to the counters of a tally, and no new depth. -/
theorem Tally.Totals.finish {news : List Bulletin} {t : Tally} (h : t.Totals news) {last : Bulletin}
    (finished : last.event = .searchFinished) (told : last.depth ∈ depthsTold Event.tellsDepth news)
    (isNew isEnd : Bool) :
    (Statistics.reckon .searchFinished last.depth isNew isEnd t).Totals (news ++ [last]) where
  counters event counted := by
    rw [(counts_counter counted).reckon, Event.tick, if_neg (by decide), if_neg counted.2.symm,
      h.counters event counted, List.countP_append]
    simp [finished, counted.2.symm]
  maxDepth := by
    rw [Statistics.maxDepth_reckon _ _ _ _ _ (by decide), depthsTold_append, finished]
    have le := h.maxDepth.2 told
    simpa [Event.tellsDepth, Nat.max_eq_left le] using h.maxDepth

theorem depthsTold_congr {tells tells' : Event → Bool} {bs : List Bulletin}
    (same : ∀ b ∈ bs, tells b.event = tells' b.event) : depthsTold tells bs = depthsTold tells' bs := by
  ext d
  constructor
  · rintro ⟨b, member, told, depth⟩
    exact ⟨b, member, same b member ▸ told, depth⟩
  · rintro ⟨b, member, told, depth⟩
    exact ⟨b, member, (same b member).symm ▸ told, depth⟩

/-- The report of a search that came to its end agrees with the outcome that was read off it. -/
theorem Search.Closed.agrees [Engine E] [Property P] {wrap : Reporter B → L} {i : Nat}
    {base : List Bulletin} {t : Search E P L} {o : Outcome} (h : t.Closed wrap i base) (outcome : o.Of t.run) :
    ∃ m report news, t.reporter = some (wrap m) ∧ m.lastReport = some report ∧
      t.run.journal.bulletins = base ++ news ∧ report.Agrees o t.run news := by
  obtain ⟨m, reporter, report⟩ := h.report
  obtain ⟨news, last, bulletins, unfinished, finished, depth, told, before, totals, isNew, isEnd, tally⟩ :=
    h.books
  rw [DepthTold, ← depth] at told
  have total := totals.finish finished told isNew isEnd
  rw [← depth] at tally
  rw [← tally] at total
  refine ⟨m, _, _, reporter, report, bulletins, ?_⟩
  have counter (event : Event) (counted : event.isCounted) := total.counters event counted
  exact
    { depth := outcome.depth.symm
      constraint := outcome.lastConstraint.symm
      errors := rfl
      length := by rw [outcome.errors]; simp [Reporter.collect, Run.summaries]
      advanced := counter .stateAdvanced (by simp [Event.isCounted])
      backtracked := counter .stateBacktracked (by simp [Event.isCounted])
      processed := counter .stateProcessed (by simp [Event.isCounted])
      stored := counter .stateStored (by simp [Event.isCounted])
      restored := counter .stateRestored (by simp [Event.isCounted])
      constraints := counter .searchConstraintHit (by simp [Event.isCounted])
      violations := counter .propertyViolated (by simp [Event.isCounted])
      probes := counter .searchProbed (by simp [Event.isCounted])
      tallyDepth := by
        show (t.run.tally i).depth = t.run.depth
        rw [tally, depth]
        rfl
      maxDepth := total.maxDepth
      finished := by
        have before : depthsTold (fun event => event.tellsDepth || event = .searchFinished) news =
            depthsTold Event.tellsDepth news :=
          depthsTold_congr fun b member => by simp [unfinished b member]
        have same : depthsTold (fun event => event.tellsDepth || event = .searchFinished) (news ++ [last]) =
            depthsTold Event.tellsDepth (news ++ [last]) := by
          rw [depthsTold_append, depthsTold_append, finished, before]
          simp [Event.tellsDepth, Set.insert_eq_of_mem told]
        rw [same]
        exact total.maxDepth }

/-- If the run of a strategy with a reporter returns, the report agrees with it.  The publishers may
    write down what they are told, and the listeners may ask, make requests and mark states, but leave
    the tally of the reporter alone.  The violations that a search finds from its beginning on are
    numbered from 1. -/
theorem report_agrees_with_run {H : Type} [Engine E] [Checkable E P] [Listener E P L] [Publisher E P B]
    [Heuristic H E P] {wrap : Reporter B → L} {allowed : L → Prop} {i : Nat}
    (wraps : Listener.Wraps E P wrap) (discreet : Publisher.Discreet E P B)
    (leaves : Listener.LeavesTally E P i allowed) {s t : Search E P L} {m : Reporter B}
    (listeners : ∀ l ∈ s.listeners, allowed l) (reporter : s.reporter = some (wrap m))
    (tally : m.tally = i) (there : i < s.run.tallies.length) (a : Strategy H E) (budget : Nat)
    {o : Outcome} (ran : a.run budget s = .ok o t) :
    ∃ m' report news, t.reporter = some (wrap m') ∧ m'.lastReport = some report ∧
      t.run.journal.bulletins = s.run.journal.bulletins ++ news ∧ report.Agrees o t.run news ∧
      (s.run.violations = [] → report.errors.map Summary.id = List.range' 1 o.errors) := by
  have staffed : s.Staffed wrap allowed i := ⟨listeners, ⟨m, reporter, tally⟩, there⟩
  have books := Search.bookkeeping wraps discreet leaves s.run.journal.bulletins
  obtain ⟨closed, outcome⟩ := (Strategy.ensures_run_ended books a budget).of_ok ⟨staffed, rfl⟩ ran
  obtain ⟨m', report, news, found, last, bulletins, agrees⟩ := closed.agrees outcome
  refine ⟨m', report, news, found, last, bulletins, agrees, fun fresh => ?_⟩
  have heeded : s.Heeded (fun l => allowed l ∨ ∃ m, l = wrap m) Run.Numbered := by
    refine ⟨fun l member => .inl (listeners l member), ?_, by simp [Run.Numbered, fresh]⟩
    simp [reporter]
  have numbered := (Strategy.ensures_numbered wraps discreet leaves a budget).of_ok heeded ran
  have ids : report.errors.map Summary.id = t.run.violations.map Violation.id := by
    rw [agrees.errors, Run.summaries, List.map_map]
    apply List.map_congr_left
    intro v _
    simp only [Function.comp, Run.summary]
    split <;> rfl
  rw [ids, numbered, outcome.errors]

/-! ## The reporters of a session -/

namespace Observer

variable [Engine E]

theorem wraps_reporter : Listener.Wraps E Subject Observer.reporter :=
  fun _ _ _ => rfl

theorem leavesTally (i : Nat) :
    Listener.LeavesTally E Subject i fun l : Observer => l.isMild ∧ l.keepsTally i = false := by
  rintro event l r ⟨mild, other⟩
  cases l with
  | statistics l =>
    have polite : RunM.Polite (· ≠ i) (Statistics.update (E := E) (P := Subject) l.tally event) := by
      apply Statistics.polite_update
      simpa [keepsTally] using other
    have updated := polite r r .refl
    refine ensures_zoom rfl ?_
    rintro _ rfl
    have hear : Listener.hear event (l, r) = Listener.onRun (Statistics.update l.tally event) (l, r) := rfl
    rw [hear, Listener.onRun]
    cases result : Statistics.update (E := E) (P := Subject) l.tally event r with
    | ok _ r' =>
      rw [result] at updated
      exact ⟨⟨trivial, other⟩, updated⟩
    | error f r' =>
      rw [result] at updated
      exact ⟨⟨trivial, other⟩, updated.1⟩
  | idle name =>
    rintro _ rfl
    exact ⟨⟨trivial, rfl⟩, .refl⟩
  | rules l =>
    have heard : Ensures (· = (l, r)) (Listener.hear event) (fun _ s => s.1.isMild ∧ r.Calls (· ≠ i) s.2)
        fun f s => (s.1.isMild ∧ r.Calls (· ≠ i) s.2) ∧ f ≠ .fault .aboveRoot :=
      RuleListener.ensures_hear event mild r
    refine ensures_zoom rfl ((heard.imp ?_).imp_fail ?_)
    · exact fun _ s h => ⟨⟨h.1, rfl⟩, h.2⟩
    · exact fun _ s h => ⟨⟨h.1.1, rfl⟩, h.1.2⟩
  | reporter l => cases mild

end Observer

/-- A search with statistics and a listener that asks, and with a reporter that keeps a tally of its own
    and publishes to the diagnostics and to a sink. -/
def Search.publicized (s : Search E Subject Observer) : Search E Subject Observer :=
  let s := s.observed.addListener (.rules inquirer)
  { s with
    run := s.run.addTally.2
    reporter := some (.reporter { tally := s.run.addTally.1, publishers := [.log ⟨⟩, .json { sink := 0 }] }) }

theorem tangle_report_agrees_with_run : ∃ e s, GraphEngine.ofGraph .tangle = .ok e ∧
    Search.ofEngine e { continueOnViolation := true, depthLimit := 2 } = .ok s ∧
    let watching := (s.addProperty (.forbidden { states := [0, 2] })).publicized
    let strategy : Strategy DeepestFirst GraphEngine := .bestFirst { heuristic := ⟨⟩ }
    ∃ o t, strategy.run 60 watching = .ok o t ∧ o.errors = 4 ∧ (t.run.tally 1).newStates = 2 ∧
      ∃ m report news, t.reporter = some (.reporter m) ∧ m.lastReport = some report ∧
        t.run.journal.bulletins = news ∧ report.Agrees o t.run news ∧
        report.errors.map Summary.id = List.range' 1 o.errors := by
  refine ⟨_, .fresh _ { continueOnViolation := true, depthLimit := 2 }, rfl, rfl, ?_⟩
  intro watching strategy
  have ended : ∃ o t, strategy.run 60 watching = .ok o t ∧ o.errors = 4 ∧ (t.run.tally 1).newStates = 2 :=
    exists_ok_of_check (by decide +kernel)
  obtain ⟨o, t, ran, errors, states⟩ := ended
  have listeners : ∀ l ∈ watching.listeners, l.isMild ∧ l.keepsTally 1 = false := by
    have eq : watching.listeners = [.statistics { tally := 0 }, .rules inquirer] := rfl
    simpa [eq, Observer.isMild, Observer.keepsTally] using inquirer_isMild
  have there : watching.run.tallies.length = 2 := rfl
  have reporter : watching.reporter =
      some (.reporter { tally := 1, publishers := [.log ⟨⟩, .json { sink := 0 }] }) := rfl
  obtain ⟨m, report, news, found, last, bulletins, agrees, ids⟩ := report_agrees_with_run
    (E := GraphEngine) (P := Subject) (B := Outlet) Observer.wraps_reporter Outlet.discreet
    (Observer.leavesTally 1) listeners reporter rfl (by rw [there]; decide) strategy 60 ran
  have before : watching.run.journal.bulletins = [] := rfl
  have unviolated : watching.run.violations = [] := rfl
  rw [before, List.nil_append] at bulletins
  exact ⟨o, t, ran, errors, states, m, report, news, found, last, bulletins, agrees, ids unviolated⟩

end Statewalk
