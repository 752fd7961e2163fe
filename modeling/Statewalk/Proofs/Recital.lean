import Statewalk.Proofs.EventGrammar
import Statewalk.Proofs.Telling

/-! # Every strategy announces its events by its grammar

What was announced so far is judged by what may still come: a run owes a phrase if every word of it
completes the announcements to a word of the grammar.  An announcement takes its event off the front of
the phrase, everything else leaves the phrase alone.
-/

namespace Statewalk

open Phrase

theorem Journal.events_eq_map (j : Journal) : j.events = j.bulletins.map (·.event) := by
  have event (e : Entry) : e.event? = e.bulletin?.map (·.event) := by cases e <;> rfl
  simp only [events, bulletins, List.map_filterMap]
  exact congrArg (List.filterMap · j.entries) (funext event)

namespace Run

variable {E P L : Type} {G p q : Phrase} {j : Journal} {r r' : Run E P}

/-- The announcements since the journal was `j` are completed to a word of `G` by every word of `p`,
    and the end of the search is none of them. -/
def Owes (G : Phrase) (j : Journal) (p : Phrase) (r : Run E P) : Prop :=
  ∃ w, r.journal.events = j.events ++ w ∧ .searchFinished ∉ w ∧ ∀ u ∈ p.words, w ++ u ∈ G.words

/-- The announcements since the journal was `j` are a word of `G`. -/
def Said (G : Phrase) (j : Journal) (r : Run E P) : Prop :=
  ∃ w, r.journal.events = j.events ++ w ∧ w ∈ G.words

/-- The announcements since the journal was `j` are a part of a word of `G`; the end of the search is
    one of them only if it was in telling a listener of it that the run failed. -/
def BrokenOff [Listener E P L] (allowed : L → Prop) (G : Phrase) (j : Journal) (f : Failure)
    (r : Run E P) : Prop :=
  ∃ w, r.journal.events = j.events ++ w ∧ (∃ u, w ++ u ∈ G.words) ∧
    (.searchFinished ∈ w → Listener.BreaksOff allowed (fun _ => True) .searchFinished f r)

namespace Owes

theorem self (G : Phrase) (r : Run E P) : r.Owes G r.journal G :=
  ⟨[], by simp⟩

theorem mono (h : r.Owes G j p) (le : q ≤ p) : r.Owes G j q := by
  obtain ⟨w, events, unfinished, completes⟩ := h
  exact ⟨w, events, unfinished, fun u hu => completes u (le hu)⟩

/-- Only the announcements count. -/
theorem congr (h : r.Owes G j p) (same : r'.journal.bulletins = r.journal.bulletins) :
    r'.Owes G j p := by
  obtain ⟨w, events, rest⟩ := h
  refine ⟨w, ?_, rest⟩
  rw [← events, Journal.events_eq_map, Journal.events_eq_map, same]

theorem brokenOff [Listener E P L] (h : r.Owes G j p) (allowed : L → Prop) (f : Failure) :
    r.BrokenOff allowed G j f := by
  obtain ⟨w, events, unfinished, completes⟩ := h
  obtain ⟨u, hu⟩ := p.exists_mem_words
  exact ⟨w, events, ⟨u, completes u hu⟩, fun finished => absurd finished unfinished⟩

variable [Engine E]

theorem announced (h : r.Owes G j p) {e : Event} (other : e ≠ .searchFinished) (le : say e * q ≤ p)
    (n : Nat) : (r.record (.announced (r.bulletin n e))).Owes G j q := by
  obtain ⟨w, events, unfinished, completes⟩ := h
  refine ⟨w ++ [e], ?_, ?_, ?_⟩
  · simp [record, events, Entry.event?, bulletin]
  · simpa [unfinished] using Ne.symm other
  · intro u hu
    have := completes (e :: u) (le (mem_words_say_mul.2 ⟨u, hu, rfl⟩))
    simpa using this

theorem finished (h : r.Owes G j (say .searchFinished)) (n : Nat) :
    (r.record (.announced (r.bulletin n .searchFinished))).Said G j := by
  obtain ⟨w, events, -, completes⟩ := h
  refine ⟨w ++ [.searchFinished], ?_, completes [.searchFinished] rfl⟩
  simp [record, events, Entry.event?, bulletin]

end Owes

end Run

/-! ## Operations -/

namespace Search

variable {E P L : Type} [Listener E P L] {allowed : L → Prop} {G p q : Phrase} {j : Journal}
  {α β : Type} {J : Run E P → Prop} {K : α → Run E P → Prop}

/-- The operation leads from runs with `J` to runs with `K`, or breaks the announcements off. -/
def Recites (allowed : L → Prop) (G : Phrase) (j : Journal) (J : Run E P → Prop)
    (x : SearchM E P L α) (K : α → Run E P → Prop) : Prop :=
  Ensures (Heeded allowed J) x (fun a => Heeded allowed (K a)) fun f t => t.run.BrokenOff allowed G j f

namespace Recites

variable {x : SearchM E P L α}

theorem pure {a : α} (h : ∀ r, J r → K a r) : Recites allowed G j J (Pure.pure a) K :=
  Ensures.pure fun _ hs => hs.imp h

theorem bind {f : α → SearchM E P L β} {M : β → Run E P → Prop} (hx : Recites allowed G j J x K)
    (hf : ∀ a, Recites allowed G j (K a) (f a) M) : Recites allowed G j J (x >>= f) M :=
  Ensures.bind hx hf

theorem of_imp {I : Run E P → Prop} (hx : Recites allowed G j J x K) (h : ∀ r, I r → J r) :
    Recites allowed G j I x K :=
  Ensures.of_imp hx fun _ hs => hs.imp h

theorem imp {M : α → Run E P → Prop} (hx : Recites allowed G j J x K) (h : ∀ a r, K a r → M a r) :
    Recites allowed G j J x M :=
  Ensures.imp hx fun a _ hs => hs.imp (h a)

/-- A phrase that is owed may be narrowed down. -/
theorem of_le (hx : Recites allowed G j (Run.Owes G j q) x K) (le : q ≤ p) :
    Recites allowed G j (Run.Owes G j p) x K :=
  hx.of_imp fun _ h => h.mono le

theorem look {f : Run E P → α} : Recites allowed G j J (Search.look f) fun a r => J r ∧ f r = a :=
  ensures_look

theorem change {f : Run E P → Run E P} {M : Run E P → Prop} (h : ∀ r, J r → M (f r)) :
    Recites allowed G j J (Search.change f) fun _ => M :=
  ensures_change h

theorem update {f : Run E P → α × Run E P} (h : ∀ r, J r → K (f r).1 (f r).2) :
    Recites allowed G j J (Search.update f) K :=
  ensures_update h

theorem loop {ifDone : β} {iterate : α → SearchM E P L (Turn α β)} {M : β → Run E P → Prop}
    {inv : α → Run E P → Prop} (owes : ∀ a r, inv a r → r.Owes G j p)
    (finish : ∀ a r, inv a r → M ifDone r)
    (step : ∀ a, Recites allowed G j (inv a) (iterate a) (Ensures.onTurn inv M))
    (budget : Nat) (a : α) :
    Recites allowed G j (inv a) (Statewalk.loop (·.run.done) ifDone iterate budget a) M := by
  refine Ensures.loop (fun a => Heeded allowed (inv a)) ?_ ?_ ?_ budget a
  · exact fun a s hs _ => hs.imp (finish a)
  · exact fun a s hs => (owes a _ hs.run).brokenOff allowed _
  · intro a
    apply (Ensures.of_imp (step a) fun s hs => hs.1).imp
    intro turn s h
    cases turn <;> exact h

end Recites

theorem recites_look {f : Run E P → α} : Recites allowed G j J (look (L := L) f) fun _ => J :=
  ensures_look.imp fun _ _ hs => hs.imp fun _ h => h.1

theorem recites_silent {f : Run E P → α × Run E P}
    (silent : ∀ r, (f r).2.journal.bulletins = r.journal.bulletins) :
    Recites allowed G j (Run.Owes G j p) (update (L := L) f) fun _ => Run.Owes G j p :=
  ensures_update (K := fun _ => Run.Owes G j p) fun r h => h.congr (silent r)

/-- An operation on the run that makes no announcement, whether it succeeds or fails. -/
theorem recites_onRun {x : RunM E P α}
    (silent : ∀ bs, Ensures (·.journal.bulletins = bs) x (fun _ r => r.journal.bulletins = bs)
      fun _ r => r.journal.bulletins = bs) :
    Recites allowed G j (Run.Owes G j p) (onRun (L := L) x) fun _ => Run.Owes G j p := by
  have kept : Ensures (Run.Owes G j p) x (fun _ => Run.Owes G j p) fun _ => Run.Owes G j p := by
    intro r h
    have after := silent _ r rfl
    cases result : x r with
    | ok a r' =>
      rw [result] at after
      exact h.congr after
    | error f r' =>
      rw [result] at after
      exact h.congr after
  exact (ensures_onRun kept).imp_fail fun f _ hs => hs.run.brokenOff allowed f

theorem recites_launch (kept : Config → Bool → Prop) (strategy : String) :
    Recites allowed G j (fun r => r.Owes G j p ∧ kept r.config r.atViolation) (launch (L := L) strategy)
      fun _ (r : Run E P) => r.Owes G j p ∧ kept r.config r.atViolation := by
  have record (e : Entry) (silent : e.bulletin? = none) :
      Recites allowed G j (fun r => r.Owes G j p ∧ kept r.config r.atViolation) (change (L := L) (Run.record e))
        fun _ (r : Run E P) => r.Owes G j p ∧ kept r.config r.atViolation :=
    .change fun r h => ⟨h.1.congr (by simp [Run.record, silent]), h.2⟩
  have started : Recites allowed G j (fun r => r.Owes G j p ∧ kept r.config r.atViolation) (do
      change (L := L) (Run.record (.launched strategy))
      change fun r => { r with matching := true })
      fun _ (r : Run E P) => r.Owes G j p ∧ kept r.config r.atViolation :=
    (record _ rfl).bind fun _ => .change fun _ h => ⟨h.1.congr rfl, h.2⟩
  apply Recites.bind recites_look
  intro unguarded
  split
  · exact (record _ rfl).bind fun _ => started
  · exact started

theorem recites_conclude (reason : StopReason) :
    Recites allowed G j (Run.Said G j) (conclude (E := E) (P := P) (L := L) reason)
      fun _ => Run.Said G j := by
  have stopped : Recites allowed G j (Run.Said G j)
      (change (L := L) fun r : Run E P => { r with done := true }) fun _ => Run.Said G j :=
    .change fun _ h => h
  exact stopped.bind fun _ => recites_look

section Engine

variable [Engine E]

theorem recites_hasMemory :
    Recites allowed G j (Run.Owes G j p) (update (L := L) (P := P) (Run.hasMemory (E := E)))
      fun _ => Run.Owes G j p :=
  recites_silent fun r => (Run.Attended.hasMemory r).bulletins

theorem recites_isNew : Recites allowed G j (Run.Owes G j p) (isNew (E := E) (P := P) (L := L))
    fun _ => Run.Owes G j p := by
  apply recites_onRun
  rintro _ r rfl
  obtain ⟨answer, depths, query, asked, -⟩ | ⟨f, failed, -⟩ := Run.isNew_cases r
  · simp [asked]
  · simp [failed]

omit [Engine E] in
theorem recites_descend : Recites allowed G j (Run.Owes G j p) (onRun (E := E) (P := P) (L := L) Run.descend)
    fun _ => Run.Owes G j p := by
  apply recites_onRun
  rintro _ r rfl
  rw [Run.descend_apply]
  cases addWords r.depth 1 <;> rfl

omit [Engine E] in
theorem recites_ascend : Recites allowed G j (Run.Owes G j p) (onRun (E := E) (P := P) (L := L) Run.ascend)
    fun _ => Run.Owes G j p := by
  apply recites_onRun
  rintro _ r rfl
  rw [Run.ascend_apply]
  split_ifs <;> rfl

theorem recites_checkProperties [Checkable E P] :
    Recites allowed G j (Run.Owes G j p) (update (L := L) (Run.checkProperties (E := E) (P := P)))
      fun _ => Run.Owes G j p := by
  apply recites_silent
  intro r
  unfold Run.checkProperties
  simp only
  split
  · simp [Run.violate, Run.record, Entry.bulletin?]
  · rfl

theorem recites_forward [Checkable E P] :
    Recites allowed G j (Run.Owes G j p) (forward (E := E) (P := P) (L := L)) fun _ => Run.Owes G j p := by
  apply Recites.bind (.change fun r h => h.congr (by rfl))
  intro _
  apply Recites.bind (recites_silent fun r => ?_)
  · intro advanced
    exact recites_checkProperties.bind fun _ => .pure fun _ h => h
  · rw [Run.stepForward_eq]
    exact Run.bulletins_stepJournal r r.journal

theorem recites_backtrack :
    Recites allowed G j (Run.Owes G j p) (backtrack (E := E) (P := P) (L := L)) fun _ => Run.Owes G j p := by
  apply Recites.bind (.change fun r h => h.congr (by rfl))
  exact fun _ => recites_silent fun r => by simp [Run.stepBack, Run.record, Entry.bulletin?]

theorem recites_restore (snapshot : Snapshot (Engine.Saved E)) (strategy : String) :
    Recites allowed G j (Run.Owes G j p) (restore (P := P) (L := L) snapshot strategy)
      fun _ r => r.Owes G j p ∧ r.atViolation = false := by
  apply Recites.bind
  · exact .change (M := fun r => r.Owes G j p ∧ r.atViolation = false) fun r h => ⟨h.congr rfl, rfl⟩
  intro _
  apply Recites.bind
  · refine .update (K := fun _ r => r.Owes G j p ∧ r.atViolation = false) fun r h => ⟨h.1.congr ?_, h.2⟩
    simp [Run.stepTo, Run.record, Entry.bulletin?]
  intro accepted
  split
  · exact .change fun r h => ⟨h.1.congr (by rfl), h.2⟩
  · exact Ensures.throw fun s hs => hs.run.1.brokenOff allowed _

omit [Engine E] in
theorem recites_endsAtViolation :
    Recites allowed G j (Run.Owes G j p) (update (E := E) (P := P) (L := L) Run.endsAtViolation)
      fun _ => Run.Owes G j p := by
  apply recites_silent
  intro r
  unfold Run.endsAtViolation
  split_ifs <;> rfl

end Engine

/-! ## Announcements -/

section Announcements

variable [Engine E] (restrained : Listener.Restrained (fun _ : Run E P => True) allowed)

include restrained

/-- An announcement takes its event off what is owed.  What listeners cannot change is kept. -/
theorem recites_announce_while (kept : Config → Bool → Prop) {e : Event} (other : e ≠ .searchFinished)
    (le : say e * q ≤ p) :
    Recites allowed G j (fun r => r.Owes G j p ∧ kept r.config r.atViolation)
      (announce (E := E) (P := P) (L := L) e) fun _ r => r.Owes G j q ∧ kept r.config r.atViolation := by
  have robust : Run.Robust fun r : Run E P => r.Owes G j q ∧ kept r.config r.atViolation := by
    apply Run.Robust.of_attended
    intro r r' h attended
    refine ⟨h.1.congr attended.bulletins, ?_⟩
    rw [attended.config, attended.atViolation]
    exact h.2
  have told := robust_announce (J := fun r => r.Owes G j p ∧ kept r.config r.atViolation)
    (restrained.of_imp fun _ _ => trivial) robust fun r n h => ⟨h.1.announced other le n, h.2⟩
  exact told.imp_fail fun f t ht => ht.run.1.1.brokenOff allowed f

theorem recites_announce {e : Event} (other : e ≠ .searchFinished) (le : say e * q ≤ p) :
    Recites allowed G j (Run.Owes G j p) (announce (E := E) (P := P) (L := L) e)
      fun _ => Run.Owes G j q := by
  have told := recites_announce_while (G := G) (j := j) restrained (fun _ _ => True) other le
  exact (told.of_imp fun _ h => ⟨h, trivial⟩).imp fun _ _ h => h.1

theorem recites_finish :
    Recites allowed G j (Run.Owes G j (say .searchFinished))
      (announce (E := E) (P := P) (L := L) .searchFinished) fun _ => Run.Said G j := by
  have robust : Run.Robust (Run.Said (E := E) (P := P) G j) := by
    apply Run.Robust.of_attended
    rintro r r' ⟨w, events, word⟩ attended
    refine ⟨w, ?_, word⟩
    rw [← events, Journal.events_eq_map, Journal.events_eq_map, attended.bulletins]
  have told := robust_announce (restrained.of_imp fun _ _ => trivial) robust
    fun r n (h : r.Owes G j _) => h.finished n
  refine told.imp_fail fun f t ht => ?_
  obtain ⟨⟨w, events, word⟩, broken⟩ := ht.run
  exact ⟨w, events, ⟨[], by simpa using word⟩, fun _ => broken.imp fun _ _ => trivial⟩

theorem recites_pollProbe_while (kept : Config → Bool → Prop) (le : maybe .searchProbed * q ≤ p) :
    Recites allowed G j (fun r => r.Owes G j p ∧ kept r.config r.atViolation)
      (pollProbe (E := E) (P := P) (L := L)) fun _ r => r.Owes G j q ∧ kept r.config r.atViolation := by
  apply Recites.bind
  · exact .update (K := fun _ r => r.Owes G j p ∧ kept r.config r.atViolation)
      fun r h => ⟨h.1.congr rfl, h.2⟩
  intro requested
  split
  · exact recites_announce_while restrained kept (by decide) (maybe_mul_le.1 le).2
  · exact .pure fun _ h => ⟨h.1.mono (maybe_mul_le.1 le).1, h.2⟩

theorem recites_pollProbe (le : maybe .searchProbed * q ≤ p) :
    Recites allowed G j (Run.Owes G j p) (pollProbe (E := E) (P := P) (L := L)) fun _ => Run.Owes G j q := by
  have polled := recites_pollProbe_while (G := G) (j := j) restrained (fun _ _ => True) le
  exact (polled.of_imp fun _ h => ⟨h, trivial⟩).imp fun _ _ h => h.1

theorem recites_announceConstraint (details : String) (le : say .searchConstraintHit * q ≤ p) :
    Recites allowed G j (Run.Owes G j p) (announceConstraint (E := E) (P := P) (L := L) details)
      fun _ => Run.Owes G j q := by
  apply Recites.bind (.change fun r h => h.congr (by rfl))
  exact fun _ => recites_announce restrained (by decide) le

theorem recites_announceMemoryLimit (le : say .searchConstraintHit * q ≤ p) :
    Recites allowed G j (Run.Owes G j p) (announceMemoryLimit (E := E) (P := P) (L := L))
      fun _ => Run.Owes G j q := by
  apply Recites.bind recites_look
  exact fun _ => recites_announceConstraint restrained _ le

section Violations

variable [Property P]

theorem recites_announceViolation (le : say .propertyViolated * q ≤ p) :
    Recites allowed G j (Run.Owes G j p) (announceViolation (E := E) (P := P) (L := L))
      fun _ => Run.Owes G j q := by
  apply Recites.bind (recites_announce restrained (by decide) le)
  intro _
  apply Recites.bind recites_look
  intro continues
  split
  · exact .change fun r h => h.congr (by rfl)
  · exact .pure fun _ h => h

theorem recites_settleViolation (le : maybe .propertyViolated * q ≤ p) :
    Recites allowed G j (Run.Owes G j p) (settleViolation (E := E) (P := P) (L := L))
      fun _ => Run.Owes G j q := by
  apply Recites.bind recites_look
  intro violated
  split
  · apply Recites.bind (recites_announceViolation restrained (maybe_mul_le.1 le).2)
    exact fun _ => recites_endsAtViolation
  · exact .pure fun _ h => h.mono (maybe_mul_le.1 le).1

theorem recites_settleDeadEnd (le : say .stateProcessed * (maybe .propertyViolated * q) ≤ p) :
    Recites allowed G j (Run.Owes G j p) (settleDeadEnd (E := E) (P := P) (L := L))
      fun _ => Run.Owes G j q := by
  apply Recites.bind (recites_announce restrained (by decide) le)
  intro _
  apply Recites.bind recites_look
  intro violated
  split
  · apply Recites.bind (recites_announceViolation restrained (say_mul_le_maybe_mul _ _))
    exact fun _ => .pure fun _ h => h
  · exact .pure fun _ h => h.mono (le_maybe_mul _ _)

end Violations

/-- The whole loop, once its iterations are known to lead back to what is ahead or to the end. -/
theorem recites_repeatUntilDone {ahead : Phrase} {inv : α → Run E P → Prop}
    {iterate : α → SearchM E P L (Turn α StopReason)} (owes : ∀ a r, inv a r → r.Owes G j ahead)
    (le : say .searchFinished ≤ ahead)
    (step : ∀ a, Recites allowed G j (inv a) (iterate a)
      (Ensures.onTurn inv fun _ => Run.Owes G j (say .searchFinished)))
    (budget : Nat) (a : α) :
    Recites allowed G j (inv a) (repeatUntilDone iterate budget a) fun _ => Run.Said G j := by
  apply Recites.bind (.loop (M := fun _ => Run.Owes G j (say .searchFinished)) owes
    (fun a r h => (owes a r h).mono le) step budget a)
  intro reason
  apply Recites.bind (recites_finish restrained)
  exact fun _ => .pure fun _ h => h

end Announcements

end Search

end Statewalk
