import Statewalk.Proofs.Bookkeeping
import Statewalk.Session.Observer

/-! # Tallies that count announcements

A counter of a tally that one listener keeps, and that no other touches, reads how often its event
was announced since the search was started.  The counters of the statistics are such.
-/

namespace Statewalk

/-- What a counter of events of one kind reads after an event; it starts with the search. -/
def Event.tick (counted event : Event) (n : Nat) : Nat :=
  if event = .searchStarted then 0 else if event = counted then n + 1 else n

/-- How often an event was announced. -/
def Journal.announcements (event : Event) (j : Journal) : Nat :=
  j.bulletins.countP (·.event = event)

variable {E P L : Type} {i : Nat} {reading : Tally → Nat} {counted event : Event}
  {keeps : L → Bool} {allowed : L → Prop}

/-! ## Telling listeners -/

/-- The tally is read as before, up to a function, and nothing was announced. -/
structure Run.Ticked (i : Nat) (reading : Tally → Nat) (f : Nat → Nat) (r r' : Run E P) : Prop where
  size : r'.tallies.length = r.tallies.length
  bulletins : r'.journal.bulletins = r.journal.bulletins
  read : i < r.tallies.length → reading (r'.tally i) = f (reading (r.tally i))

theorem Run.Ticked.trans {f f' : Nat → Nat} {r r' r'' : Run E P} (h : Ticked i reading f r r')
    (h' : Ticked i reading f' r' r'') : Ticked i reading (f' ∘ f) r r'' where
  size := h'.size.trans h.size
  bulletins := h'.bulletins.trans h.bulletins
  read tally := by
    rw [h'.read (h.size ▸ tally), h.read tally]
    rfl

theorem Run.Ticked.of_tallies {r r' : Run E P} (tallies : r'.tallies = r.tallies)
    (bulletins : r'.journal.bulletins = r.journal.bulletins) : Ticked i reading id r r' where
  size := by rw [tallies]
  bulletins := bulletins
  read _ := by rw [tally, tallies]; rfl

theorem Run.Silent.ticked {r r' : Run E P} (h : r.Silent r') : Ticked i reading id r r' :=
  .of_tallies h.tallies h.bulletins

namespace Listener

variable [Listener E P L]

/-- Of the allowed listeners, those picked out keep the counter of the tally, and the others leave it
    alone. -/
def Meters (E P : Type) {L : Type} [Listener E P L] (i : Nat) (reading : Tally → Nat) (counted : Event)
    (keeps : L → Bool) (allowed : L → Prop) : Prop :=
  ∀ (event : Event) (l : L) (r : Run E P), allowed l →
    Ensures (· = (l, r)) (hear event)
      (fun _ s => (allowed s.1 ∧ keeps s.1 = keeps l) ∧
        r.Ticked i reading (if keeps l then counted.tick event else id) s.2)
      fun _ _ => True

variable (meters : Meters E P i reading counted keeps allowed)

include meters

theorem tell_ticked {l : L} {r : Run E P} (hl : allowed l) (told : (tell event l r).verdict = .ok ()) :
    (allowed (tell event l r).listener ∧ keeps (tell event l r).listener = keeps l) ∧
      r.Ticked i reading (if keeps l then counted.tick event else id) (tell event l r).run := by
  have called : r.Ticked i reading id (r.record (.called (Named.name l) event)) :=
    Run.Silent.ticked (.record r rfl rfl)
  have answer := meters event l (r.record (.called (Named.name l) event)) hl _ rfl
  unfold tell at told ⊢
  cases heard : hear event (l, r.record (.called (Named.name l) event)) with
  | ok _ after =>
    rw [heard] at answer
    exact ⟨answer.1, called.trans answer.2⟩
  | error f after =>
    rw [heard] at told
    cases told

theorem tellAll_ticked {ls : List L} {r : Run E P} (hls : ∀ l ∈ ls, allowed l)
    (told : (tellAll event ls r).verdict = .ok ()) :
    ((∀ l ∈ (tellAll event ls r).listener, allowed l) ∧
        (tellAll event ls r).listener.countP keeps = ls.countP keeps) ∧
      r.Ticked i reading (counted.tick event)^[ls.countP keeps] (tellAll event ls r).run := by
  induction ls generalizing r with
  | nil => exact ⟨⟨hls, rfl⟩, Run.Silent.ticked {}⟩
  | cons l ls ih =>
    obtain ⟨hl, others⟩ := List.forall_mem_cons.1 hls
    simp only [tellAll] at told ⊢
    cases verdict : (tell event l r).verdict with
    | error f =>
      rw [verdict] at told
      cases told
    | ok _ =>
      rw [verdict] at told
      obtain ⟨⟨first, same⟩, ticked⟩ := tell_ticked meters hl verdict
      obtain ⟨⟨rest, count⟩, ticked'⟩ := ih others told
      refine ⟨⟨List.forall_mem_cons.2 ⟨first, rest⟩, ?_⟩, ?_⟩
      · simp only [List.countP_cons, count, same]
      · have both := ticked.trans ticked'
        cases kept : keeps l with
        | true => simpa [List.countP_cons, kept, Function.iterate_succ] using both
        | false => simpa [List.countP_cons, kept] using both

end Listener

/-! ## Searches -/

namespace Search

variable [Engine E] [Listener E P L]

/-- One of the listeners keeps the tally, and the reporter does not. -/
structure Equipped (i : Nat) (keeps : L → Bool) (allowed : L → Prop) (s : Search E P L) : Prop where
  listeners : ∀ l ∈ s.listeners, allowed l
  reporter : ∀ l ∈ s.reporter, allowed l ∧ keeps l = false
  single : s.listeners.countP keeps = 1
  tally : i < s.run.tallies.length

/-- The counter of the tally reads how often its event was announced. -/
structure Metered (i : Nat) (reading : Tally → Nat) (counted : Event) (keeps : L → Bool)
    (allowed : L → Prop) (s : Search E P L) : Prop where
  equipped : s.Equipped i keeps allowed
  read : reading (s.run.tally i) = s.run.journal.announcements counted

omit [Engine E] [Listener E P L] in
theorem Equipped.quiet {s t : Search E P L} (h : s.Equipped i keeps allowed) (quiet : Quiet s t) :
    t.Equipped i keeps allowed :=
  ⟨quiet.listeners ▸ h.listeners, quiet.reporter ▸ h.reporter, quiet.listeners ▸ h.single,
    quiet.run.tallies ▸ h.tally⟩

variable (meters : Listener.Meters E P i reading counted keeps allowed)

include meters

omit [Engine E] in
theorem ensures_broadcast_ticked {s : Search E P L} (h : s.Equipped i keeps allowed) (event : Event) :
    Ensures (· = s) (broadcast event)
      (fun _ t => t.Equipped i keeps allowed ∧ s.run.Ticked i reading (counted.tick event) t.run)
      fun _ _ => True := by
  obtain ⟨run, listeners, reporter⟩ := s
  obtain ⟨hlisteners, hreporter, single, tally⟩ := h
  rintro _ rfl
  simp only [broadcast]
  cases verdict : (Listener.tellAll event listeners run).verdict with
  | error f => trivial
  | ok _ =>
    obtain ⟨⟨others, count⟩, ticked⟩ := Listener.tellAll_ticked meters hlisteners verdict
    rw [single] at ticked count
    rw [Function.iterate_one] at ticked
    have tally := ticked.size ▸ tally
    cases reporter with
    | none => exact ⟨⟨others, hreporter, count, tally⟩, ticked⟩
    | some l =>
      obtain ⟨hl, spares⟩ := hreporter l rfl
      simp only
      cases verdict' : (Listener.tell event l (Listener.tellAll event listeners run).run).verdict with
      | error f => trivial
      | ok _ =>
        obtain ⟨⟨first, same⟩, last⟩ := Listener.tell_ticked meters hl verdict'
        rw [spares] at last same
        exact ⟨⟨others, by simpa using ⟨first, same⟩, count, last.size ▸ tally⟩, ticked.trans last⟩

theorem ensures_announce_ticked {s : Search E P L} (h : s.Equipped i keeps allowed) (event : Event) :
    Ensures (· = s) (announce event)
      (fun _ t => t.Equipped i keeps allowed ∧
        reading (t.run.tally i) = counted.tick event (reading (s.run.tally i)) ∧
        t.run.journal.announcements counted =
          s.run.journal.announcements counted + if event = counted then 1 else 0)
      fun _ _ => True := by
  let entered : Search E P L := { s with run := s.run.record (.announced (s.bulletin event)) }
  have equipped : entered.Equipped i keeps allowed := ⟨h.listeners, h.reporter, h.single, h.tally⟩
  apply ensures_announce_of_broadcast (K := (· = entered)) fun _ eq => eq ▸ rfl
  apply (ensures_broadcast_ticked meters equipped event).imp
  rintro _ t ⟨equipped', ticked⟩
  refine ⟨equipped', ticked.read h.tally, ?_⟩
  have bulletins : t.run.journal.bulletins = s.run.journal.bulletins ++ [s.bulletin event] := by
    rw [ticked.bulletins]
    simp [entered, Run.record, Entry.bulletin?]
  rw [Journal.announcements, bulletins, List.countP_append]
  simp [Journal.announcements, bulletin]

theorem conserved_metered :
    Conserved (Metered (E := E) (P := P) i reading counted keeps allowed) where
  quiet s t h quiet := by
    refine ⟨h.equipped.quiet quiet, ?_⟩
    rw [Run.tally, quiet.run.tallies, Journal.announcements, quiet.run.bulletins]
    exact h.read
  announced event other := by
    intro s h
    apply ((ensures_announce_ticked meters h.equipped event).imp _) s rfl
    rintro _ t ⟨equipped, read, announced⟩
    refine ⟨equipped, ?_⟩
    rw [read, announced, h.read, Event.tick, if_neg other]
    split <;> rfl

/-- The counter starts with the search. -/
theorem ensures_started_metered (other : counted ≠ .searchStarted) :
    Ensures (fun s : Search E P L => s.Equipped i keeps allowed ∧ s.run.journal.announcements counted = 0)
      (announce .searchStarted) (fun _ => Metered i reading counted keeps allowed) fun _ _ => True := by
  rintro s ⟨equipped, none⟩
  apply ((ensures_announce_ticked meters equipped .searchStarted).imp _) s rfl
  rintro _ t ⟨equipped', read, announced⟩
  refine ⟨equipped', ?_⟩
  rw [read, announced, none, if_neg other.symm]
  rfl

variable [Checkable E P] (other : counted ≠ .searchStarted) (budget : Nat)

include other

/-- At the end of a depth-first search, the counter reads how often its event was announced. -/
theorem ensures_metered_depthFirst :
    Ensures (fun s : Search E P L => s.Equipped i keeps allowed ∧ s.run.journal.announcements counted = 0)
      (DepthFirst.run budget) (fun _ => Metered i reading counted keeps allowed) fun _ _ => True := by
  refine DepthFirst.ensures_conserved (conserved_metered meters) ?_ (ensures_started_metered meters other) budget
  rintro s t ⟨equipped, none⟩ quiet
  refine ⟨equipped.quiet quiet, ?_⟩
  rw [Journal.announcements, quiet.run.bulletins]
  exact none

theorem ensures_metered_bestFirst {H : Type} [Heuristic H E P] :
    Ensures (fun x : Expedition H E P L =>
        x.search.Equipped i keeps allowed ∧ x.search.run.journal.announcements counted = 0)
      (BestFirst.run budget) (fun _ x => x.search.Metered i reading counted keeps allowed)
      fun _ _ => True := by
  refine BestFirst.ensures_conserved (conserved_metered meters) ?_ (ensures_started_metered meters other) budget
  rintro s t ⟨equipped, none⟩ quiet
  refine ⟨equipped.quiet quiet, ?_⟩
  rw [Journal.announcements, quiet.run.bulletins]
  exact none

end Search

/-! ## The listeners of a session -/

/-- The statistics keep the counter. -/
structure Tally.Counts (reading : Tally → Nat) (counted : Event) : Prop where
  other : ∀ event depth t, event ≠ .stateAdvanced →
    reading (Statistics.count event depth t) = counted.tick event (reading t)
  advanced : ∀ depth isNew isEnd t,
    reading (Statistics.countState isNew isEnd (Statistics.count .stateAdvanced depth t)) =
      counted.tick .stateAdvanced (reading t)

theorem Tally.counts_violations : Tally.Counts (·.violations) .propertyViolated where
  other event depth t _ := by cases event <;> rfl
  advanced depth isNew isEnd t := by cases isNew <;> cases isEnd <;> rfl

theorem Run.ticked_modify {r r' : Run E P} {j : Nat} {f : Tally → Tally} {g : Nat → Nat}
    (bulletins : r'.journal.bulletins = r.journal.bulletins) (tallies : r'.tallies = r.tallies.modify j f)
    (h : ∀ t, reading (f t) = g (reading t)) :
    Ticked i reading (if j = i then g else id) r r' where
  size := by rw [tallies, List.length_modify]
  bulletins := bulletins
  read tally := by
    rw [Run.tally, Run.tally, tallies, List.getElem?_modify, List.getElem?_eq_getElem tally]
    split <;> simp [h]

variable [Engine E]

/-- After a step forward the depth is noted first, then the state is counted as new or known. -/
theorem Statistics.update_of_asked {j : Nat} {r after : Run E P} {answer : Bool}
    (asked : Run.isNew (r.modifyTally j (count .stateAdvanced r.depth)) = .ok answer after) :
    Statistics.update j .stateAdvanced r =
      .ok () (after.modifyTally j (countState answer (Engine.isEnd after.engine))) := by
  have first : Statistics.update j .stateAdvanced r = (do
      let isNew ← Run.isNew
      modify fun r => r.modifyTally j (countState isNew (Engine.isEnd r.engine)) : RunM E P Unit)
        (r.modifyTally j (count .stateAdvanced r.depth)) := rfl
  rw [first, EStateM.bind_of_ok asked]
  rfl

theorem Statistics.update_of_ne (other : event ≠ .stateAdvanced) (j : Nat) (r : Run E P) :
    Statistics.update j event r = .ok () (r.modifyTally j (count event r.depth)) := by
  simp only [Statistics.update, if_neg other]
  rfl

theorem Statistics.cases_of_update {j : Nat} {r r' : Run E P} (done : Statistics.update j event r = .ok () r') :
    (event = .stateAdvanced ∧ ∃ answer after,
      Run.isNew (r.modifyTally j (count .stateAdvanced r.depth)) = .ok answer after ∧
        r' = after.modifyTally j (countState answer (Engine.isEnd after.engine))) ∨
      (event ≠ .stateAdvanced ∧ r' = r.modifyTally j (count event r.depth)) := by
  by_cases advanced : event = .stateAdvanced
  · subst advanced
    cases asked : Run.isNew (r.modifyTally j (count .stateAdvanced r.depth)) with
    | error f after =>
      have failed : Statistics.update j .stateAdvanced r = .error f after := by
        simp only [Statistics.update, bind, EStateM.bind, modify, modifyGet, MonadStateOf.modifyGet,
          EStateM.modifyGet_apply, if_true, asked]
      rw [failed] at done
      cases done
    | ok answer after =>
      rw [update_of_asked asked] at done
      cases done
      exact .inl ⟨rfl, answer, after, rfl, rfl⟩
  · rw [update_of_ne advanced] at done
    cases done
    exact .inr ⟨advanced, rfl⟩

theorem Statistics.config_of_update {j : Nat} {r r' : Run E P}
    (done : Statistics.update j event r = .ok () r') : r'.config = r.config := by
  obtain ⟨rfl, answer, after, asked, rfl⟩ | ⟨-, rfl⟩ := cases_of_update done
  · exact (Run.Attended.isNew asked).config
  · rfl

theorem Statistics.ticked_update (counts : Tally.Counts reading counted) {j : Nat} {r r' : Run E P}
    (done : Statistics.update j event r = .ok () r') :
    r.Ticked i reading (if j = i then counted.tick event else id) r' := by
  obtain ⟨rfl, answer, after, asked, rfl⟩ | ⟨advanced, rfl⟩ := cases_of_update done
  · have silent := Run.Silent.isNew asked
    refine Run.ticked_modify silent.bulletins ?_ fun t =>
      counts.advanced r.depth answer (Engine.isEnd after.engine) t
    show after.tallies.modify j _ = _
    rw [silent.tallies]
    exact List.modify_modify_eq _ _ _ _
  · exact Run.ticked_modify rfl rfl fun t => counts.other event r.depth t advanced

/-- Calls of a listener without a tally of its own leave all tallies alone. -/
theorem Run.Calls.ticked {r r' : Run E P} (h : r.Calls (fun _ => False) r') : Ticked i reading id r r' := by
  have tallies : r'.tallies = r.tallies := by
    induction h with
    | refl => rfl
    | tail _ last ih =>
      rw [← ih]
      cases last with
      | ask asked => exact (Run.Silent.isNew asked).tallies
      | gauge => exact (Run.Silent.hasMemory _).tallies
      | tally _ _ owned => cases owned
      | _ => rfl
  exact .of_tallies tallies (Attended.calls h).bulletins

theorem ensures_zoom {σ τ ρ α : Type} {wrap : σ → τ} {part : σ} {rest : ρ}
    {x : EStateM Failure (σ × ρ) α} {y : EStateM Failure (τ × ρ) α} {post : α → τ × ρ → Prop}
    {fail : Failure → τ × ρ → Prop} (zoomed : y (wrap part, rest) = zoom wrap part x rest)
    (h : Ensures (· = (part, rest)) x (fun a s => post a (wrap s.1, s.2)) fun f s => fail f (wrap s.1, s.2)) :
    Ensures (· = (wrap part, rest)) y post fail := by
  rintro _ rfl
  have after := h _ rfl
  rw [zoomed, zoom]
  cases result : x (part, rest) with
  | ok a s =>
    rw [result] at after
    exact after
  | error f s =>
    rw [result] at after
    exact after

namespace Observer

/-- A listener that keeps statistics, does nothing, or follows mild rules. -/
def isMild : Observer → Prop
  | .statistics _ => True
  | .idle _ => True
  | .rules l => l.isMild
  | .reporter _ => False

/-- The listener keeps statistics in the tally. -/
def keepsTally (i : Nat) : Observer → Bool
  | .statistics l => l.tally = i
  | _ => false

theorem restrained (seen : Run E Subject → Prop) : Listener.Restrained seen Observer.isMild := by
  intro event l r mild shown
  cases l with
  | statistics l => exact ensures_zoom rfl (Statistics.restrained seen event l r trivial shown)
  | idle name =>
    rintro _ rfl
    exact ⟨trivial, .refl⟩
  | rules l => exact ensures_zoom rfl (RuleListener.restrained seen event l r mild shown)
  | reporter l => cases mild

theorem meters (counts : Tally.Counts reading counted) (i : Nat) :
    Listener.Meters E Subject i reading counted (keepsTally i) isMild := by
  intro event l r mild
  cases l with
  | statistics l =>
    refine ensures_zoom rfl ?_
    rintro _ rfl
    have hear : Listener.hear event (l, r) = Listener.onRun (Statistics.update l.tally event) (l, r) := rfl
    rw [hear, Listener.onRun]
    cases done : Statistics.update (E := E) (P := Subject) l.tally event r with
    | ok _ r' =>
      have ticked := Statistics.ticked_update (i := i) counts done
      simpa [isMild, keepsTally] using ticked
    | error f r' => trivial
  | idle name =>
    rintro _ rfl
    exact ⟨⟨trivial, rfl⟩, Run.Silent.ticked {}⟩
  | rules l =>
    have heard : Ensures (· = (l, r)) (Listener.hear event)
        (fun _ s => s.1.isMild ∧ r.Calls (fun _ => False) s.2)
        fun f s => (s.1.isMild ∧ r.Calls (fun _ => False) s.2) ∧ f ≠ .fault .aboveRoot :=
      RuleListener.ensures_hear event mild r
    refine ensures_zoom rfl ((heard.imp ?_).imp_fail fun _ _ _ => trivial)
    rintro _ s ⟨mild', calls⟩
    exact ⟨⟨mild', rfl⟩, Run.Calls.ticked calls⟩
  | reporter l => cases mild

end Observer

/-- The search with statistics among its listeners. -/
def Search.observed {E : Type} (s : Search E Subject Observer) : Search E Subject Observer :=
  addListener (.statistics { tally := s.run.addTally.1 }) { s with run := s.run.addTally.2 }

end Statewalk
