import Statewalk.Proofs.Expeditions
import Statewalk.Proofs.Recital
import Statewalk.Strategy.RandomRestart
import Statewalk.Strategy.Replay
import Statewalk.Strategy.Simulation

/-! # The order of announcements

Each strategy announces the events of a run in the order of its grammar, whatever the engine does and
the listeners ask for.
-/

namespace Statewalk

open Phrase Search

section Strategies

variable {H E P L : Type} [Engine E] [Checkable E P] [Listener E P L] {allowed : L → Prop}
  {G : Phrase} {j : Journal} (restrained : Listener.Restrained (fun _ : Run E P => True) allowed)

/-- An iteration leads back to where the phrase is owed, or to where only the end is. -/
def Run.owesAfter {α β : Type} (G : Phrase) (j : Journal) (ahead : Phrase) : Turn α β → Run E P → Prop :=
  Ensures.onTurn (fun _ => Run.Owes G j ahead) fun _ => Run.Owes G j (say .searchFinished)

include restrained

namespace DepthFirst

omit [Checkable E P] in
theorem recites_checkLimits (limitReached : Bool) :
    Recites allowed G j (Run.Owes G j (maybe .searchConstraintHit * ahead))
      (checkLimits (E := E) (P := P) (L := L) limitReached) (Run.owesAfter G j ahead) := by
  apply Recites.bind recites_look
  intro limit
  apply Recites.bind recites_look
  intro depth
  split
  · apply Recites.bind (recites_announceConstraint restrained _ (say_mul_le_maybe_mul _ _))
    exact fun _ => .pure fun _ h => h
  · apply Recites.bind recites_hasMemory
    intro enough
    split
    · exact .pure fun _ h => h.mono (le_maybe_mul _ _)
    · apply Recites.bind (recites_announceMemoryLimit restrained (say_mul_le_maybe_mul _ _))
      exact fun _ => .pure fun _ h => h.mono finished_le

theorem recites_advance (limitReached : Bool) :
    Recites allowed G j (Run.Owes G j (movePhrase * ahead))
      (advance (E := E) (P := P) (L := L) limitReached) (Run.owesAfter G j ahead) := by
  apply Recites.bind recites_forward
  intro advanced
  split
  · apply Recites.bind recites_descend
    intro _
    apply Recites.bind (recites_announce restrained (by decide) advanced_le)
    intro _
    apply Recites.bind (recites_settleViolation restrained le_rfl)
    intro ends
    split
    · exact .pure fun _ h => h.mono (finished_le.trans (le_maybe_mul _ _))
    · exact recites_checkLimits restrained limitReached
  · apply Recites.bind (recites_announce restrained (by decide) processed_le)
    exact fun _ => .pure fun _ h => h

omit [Checkable E P] restrained in
theorem recites_mustLeave {p : Phrase} (limitReached : Bool) :
    Recites allowed G j (Run.Owes G j p) (mustLeave (E := E) (P := P) (L := L) limitReached)
      fun _ => Run.Owes G j p := by
  apply Recites.bind recites_isNew
  intro isNew
  apply Recites.bind (recites_silent fun _ => by rfl)
  intro requested
  apply Recites.bind recites_look
  exact fun _ => .pure fun _ h => h

theorem recites_iterate (limitReached : Bool) :
    Recites allowed G j (Run.Owes G j ahead) (iterate (E := E) (P := P) (L := L) limitReached)
      (Run.owesAfter G j ahead) := by
  apply Recites.bind (recites_pollProbe restrained polled_le)
  intro _
  apply Recites.bind (recites_mustLeave limitReached)
  intro leaves
  split
  · apply Recites.bind recites_backtrack
    intro moved
    split
    · apply Recites.bind recites_ascend
      intro _
      apply Recites.bind
      · exact recites_announce restrained (by decide) ((say_mul_le_maybe_mul _ _).trans backtracked_le)
      exact fun _ => recites_advance restrained false
    · exact .pure fun _ h => h.mono (le_add_right _ _)
  · exact (recites_advance restrained limitReached).of_le ((le_maybe_mul _ _).trans backtracked_le)

end DepthFirst

namespace Replay

theorem recites_advance :
    Recites allowed G j (Run.Owes G j moving) (advance (E := E) (P := P) (L := L))
      (Run.owesAfter G j ahead) := by
  apply Recites.bind recites_forward
  intro advanced
  split
  · apply Recites.bind recites_descend
    intro _
    apply Recites.bind (recites_announce restrained (by decide) (le_add_left _ _))
    intro _
    apply Recites.bind (recites_settleViolation restrained le_rfl)
    intro ends
    split
    · exact .pure fun _ h => h.mono finished_le
    · apply Recites.bind recites_look
      intro engine
      split
      · exact .pure fun _ h => h.mono finished_le
      · exact .pure fun _ h => h
  · apply Recites.bind (recites_settleDeadEnd restrained (le_add_right _ _))
    exact fun _ => .pure fun _ h => h

theorem recites_iterate :
    Recites allowed G j (Run.Owes G j ahead) (iterate (E := E) (P := P) (L := L) ())
      (Run.owesAfter G j ahead) := by
  apply Recites.bind (recites_pollProbe restrained polled_le)
  intro _
  apply Recites.bind (recites_silent fun _ => by rfl)
  intro requested
  split
  · apply Recites.bind recites_backtrack
    intro moved
    split
    · apply Recites.bind recites_ascend
      intro _
      apply Recites.bind
      · exact recites_announce restrained (by decide) ((say_mul_le_maybe_mul _ _).trans (le_add_left _ _))
      exact fun _ => recites_advance restrained
    · exact .pure fun _ h => h.mono (le_add_right _ _)
  · exact (recites_advance restrained).of_le ((le_maybe_mul _ _).trans (le_add_left _ _))

end Replay

namespace Simulation

theorem recites_iterate :
    Recites allowed G j (Run.Owes G j ahead) (iterate (E := E) (P := P) (L := L) ())
      (Run.owesAfter G j ahead) := by
  apply Recites.bind (recites_pollProbe restrained polled_le)
  intro _
  apply Recites.bind recites_forward
  intro moved
  split
  · apply Recites.bind recites_descend
    intro _
    apply Recites.bind (recites_announce restrained (by decide) (le_add_left _ _))
    intro _
    apply Recites.bind recites_look
    intro violated
    split
    · apply Recites.bind (recites_announceViolation restrained (le_add_right _ _))
      exact fun _ => .pure fun _ h => h
    · apply Recites.bind recites_look
      intro engine
      split
      · exact .pure fun _ h => h.mono (finished_le.trans (le_add_left _ _))
      · exact .pure fun _ h => h.mono (le_add_left _ _)
  · apply Recites.bind (recites_settleDeadEnd restrained (le_add_right _ _))
    exact fun _ => .pure fun _ h => h

end Simulation

namespace RandomRestart

theorem recites_attempt :
    Recites allowed G j (fun r => r.Owes G j polled ∧ r.atViolation = false)
      (attempt (E := E) (P := P) (L := L)) fun _ r => r.Owes G j (due r.atViolation) := by
  apply Recites.bind recites_look
  intro limit
  apply Recites.bind recites_look
  intro depth
  apply Recites.bind
  · exact .update (K := fun _ r => r.Owes G j polled ∧ r.atViolation = false)
      fun r h => ⟨h.1.congr rfl, h.2⟩
  intro interrupted
  split
  · refine Recites.of_imp (J := Run.Owes G j polled) ?_ fun _ h => h.1
    apply Recites.bind (recites_announceConstraint restrained _ constraintHit_le)
    intro _
    apply Recites.bind recites_checkProperties
    exact fun _ => .pure fun r h => h.mono (due_le _)
  · split
    · -- Nothing moved, so no violation can have been met since the last one was dealt with.
      refine .pure fun r h => ?_
      rw [h.2]
      exact h.1.mono interrupted_le
    · refine Recites.of_imp (J := Run.Owes G j polled) ?_ fun _ h => h.1
      apply Recites.bind recites_forward
      intro moved
      split
      · apply Recites.bind recites_descend
        intro _
        apply Recites.bind (recites_announce restrained (by decide) advanced_le)
        exact fun _ => .pure fun r h => h.mono (due_le _)
      · apply Recites.bind (recites_announce restrained (by decide) processed_le)
        exact fun _ => .pure fun r h => h.mono (due_le _)

omit [Checkable E P] in
theorem recites_finishWalk (pathLimit : Nat) (start : Snapshot (Engine.Saved E)) (walks : Nat) :
    Recites allowed G j (Run.Owes G j attempted)
      (finishWalk (E := E) (P := P) (L := L) pathLimit start walks)
      (Ensures.onTurn (fun _ r => r.Owes G j ahead ∧ r.atViolation = false)
        fun _ => Run.Owes G j (say .searchFinished)) := by
  apply Recites.bind (.change fun r h => h.congr (by simp [Run.record, Entry.bulletin?]))
  intro _
  split
  · exact .pure fun _ h => h.mono finished_le
  · apply Recites.bind (recites_restore start name)
    intro _
    apply Recites.bind
    · exact .change (M := fun r => r.Owes G j attempted ∧ r.atViolation = false)
        fun r h => ⟨h.1.congr rfl, h.2⟩
    intro _
    apply Recites.bind (recites_announce_while restrained (fun _ v => v = false) (by decide) restored_le)
    exact fun _ => .pure fun _ h => h

theorem recites_iterate (pathLimit : Nat) (start : Snapshot (Engine.Saved E)) (walks : Nat) :
    Recites allowed G j (fun r => r.Owes G j ahead ∧ r.atViolation = false)
      (iterate (E := E) (P := P) (L := L) pathLimit start walks)
      (Ensures.onTurn (fun _ r => r.Owes G j ahead ∧ r.atViolation = false)
        fun _ => Run.Owes G j (say .searchFinished)) := by
  apply Recites.bind (recites_pollProbe_while restrained (fun _ v => v = false) polled_le)
  intro _
  apply Recites.bind (recites_attempt restrained)
  intro attempt
  apply Recites.bind .look
  intro violated
  cases violated with
  | true =>
    refine Recites.of_imp (J := Run.Owes G j (due true)) ?_ fun r h => h.2 ▸ h.1
    apply Recites.bind (recites_announceViolation restrained le_rfl)
    intro _
    apply Recites.bind recites_endsAtViolation
    intro ends
    split
    · exact .pure fun _ h => h.mono finished_le
    · apply Recites.bind (recites_silent fun _ => by rfl)
      exact fun _ => recites_finishWalk restrained pathLimit start walks
  | false =>
    refine Recites.of_imp (J := fun r => r.Owes G j (due false) ∧ r.atViolation = false) ?_
      fun r h => ⟨h.2 ▸ h.1, h.2⟩
    apply Recites.bind recites_look
    intro engine
    split
    · exact .pure fun _ h => ⟨h.1.mono ahead_le, h.2⟩
    · exact (recites_finishWalk restrained pathLimit start walks).of_imp fun _ h => h.1

end RandomRestart

/-! ## Runs -/

/-- Nothing was announced since the journal was `j`, no violation is on hand, and there is room in a
    queue. -/
def Run.Prepared (G : Phrase) (j : Journal) (r : Run E P) : Prop :=
  r.Owes G j G ∧ r.config.queueLimit ≠ some 0 ∧ r.atViolation = false

omit restrained [Engine E] [Checkable E P] in
theorem Search.recites_conduct (strategy : String) {explore : SearchM E P L StopReason}
    (h : Recites allowed G j (Run.Prepared G j) explore fun _ => Run.Said G j) :
    Recites allowed G j (Run.Prepared G j) (conduct strategy explore) fun _ => Run.Said G j := by
  apply Recites.bind (recites_launch (fun c v => c.queueLimit ≠ some 0 ∧ v = false) strategy)
  intro _
  exact h.bind fun reason => recites_conclude reason

theorem DepthFirst.recites_run (budget : Nat) :
    Recites allowed grammar j (Run.Prepared grammar j) (DepthFirst.run (E := E) (P := P) (L := L) budget)
      fun _ => Run.Said grammar j := by
  apply recites_conduct
  apply Recites.bind (.change (M := Run.Owes grammar j grammar) fun r h => h.1.congr rfl)
  intro _
  apply Recites.bind (recites_announce restrained (by decide) started_le)
  intro _
  exact recites_repeatUntilDone restrained (fun _ _ h => h) finished_le (recites_iterate restrained)
    budget false

theorem Replay.recites_run (budget : Nat) :
    Recites allowed grammar j (Run.Prepared grammar j) (Replay.run (E := E) (P := P) (L := L) budget)
      fun _ => Run.Said grammar j := by
  apply recites_conduct
  apply Recites.bind (.change (M := Run.Owes grammar j grammar) fun r h => h.1.congr rfl)
  intro _
  apply Recites.bind (.change fun r h => h.congr (by rfl))
  intro _
  apply Recites.bind (recites_announce restrained (by decide) started_le)
  intro _
  apply Recites.bind (recites_repeatUntilDone restrained (fun _ _ h => h) finished_le
    (fun _ => recites_iterate restrained) budget ())
  intro reason
  have matched : Recites allowed grammar j (Run.Said grammar j)
      (change (L := L) (Run.setMatching (E := E) (P := P) true)) fun _ => Run.Said grammar j :=
    .change fun _ h => h
  exact matched.bind fun _ => .pure fun _ h => h

theorem Simulation.recites_run (budget : Nat) :
    Recites allowed grammar j (Run.Prepared grammar j) (Simulation.run (E := E) (P := P) (L := L) budget)
      fun _ => Run.Said grammar j := by
  apply recites_conduct
  apply Recites.bind (.change (M := Run.Owes grammar j grammar) fun r h => h.1.congr rfl)
  intro _
  apply Recites.bind (.change fun r h => h.congr (by rfl))
  intro _
  apply Recites.bind (recites_announce restrained (by decide) started_le)
  intro _
  exact recites_repeatUntilDone restrained (fun _ _ h => h) finished_le
    (fun _ => recites_iterate restrained) budget ()

theorem RandomRestart.recites_run (pathLimit budget : Nat) :
    Recites allowed grammar j (Run.Prepared grammar j)
      (RandomRestart.run (E := E) (P := P) (L := L) pathLimit budget) fun _ => Run.Said grammar j := by
  apply recites_conduct
  apply Recites.bind recites_look
  intro engine
  cases Engine.snapshot? engine with
  | none => exact Ensures.throw fun s hs => hs.run.1.brokenOff allowed _
  | some start =>
    let calm (r : Run E P) : Prop := r.Owes grammar j grammar ∧ r.atViolation = false
    apply Recites.bind (.change (M := calm) fun r h => ⟨h.1.congr rfl, h.2.2⟩)
    intro _
    apply Recites.bind (.change (M := calm) fun r h => ⟨h.1.congr rfl, h.2⟩)
    intro _
    apply Recites.bind (recites_announce_while restrained (fun _ v => v = false) (by decide) started_le)
    intro _
    exact recites_repeatUntilDone restrained (fun _ _ h => h.1) (le_repeated_mul _ _)
      (recites_iterate restrained (max pathLimit 1) start) budget 0

/-! ## Best-first search -/

namespace BestFirst

variable {α β : Type} {J : Run E P → Prop} {K : α → Run E P → Prop}

omit restrained in
@[inherit_doc Search.Recites]
def Recites (allowed : L → Prop) (G : Phrase) (j : Journal) (J : Run E P → Prop)
    (x : ExpeditionM H E P L α) (K : α → Run E P → Prop) : Prop :=
  Ensures (fun s => s.search.Heeded allowed J) x (fun a s => s.search.Heeded allowed (K a))
    fun f s => s.search.run.BrokenOff allowed G j f

namespace Recites

omit restrained [Checkable E P]

variable {x : ExpeditionM H E P L α}

theorem pure {a : α} (h : ∀ r, J r → K a r) :
    Recites allowed G j J (Pure.pure a : ExpeditionM H E P L α) K :=
  Ensures.pure fun _ hs => hs.imp h

theorem bind {f : α → ExpeditionM H E P L β} {M : β → Run E P → Prop} (hx : Recites allowed G j J x K)
    (hf : ∀ a, Recites allowed G j (K a) (f a) M) : Recites allowed G j J (x >>= f) M :=
  Ensures.bind hx hf

theorem of_le {p q : Phrase} (hx : Recites allowed G j (Run.Owes G j q) x K) (le : q ≤ p) :
    Recites allowed G j (Run.Owes G j p) x K :=
  Ensures.of_imp hx fun _ hs => hs.imp fun _ h => h.mono le

theorem onSearch {x : SearchM E P L α} (h : Search.Recites allowed G j J x K) :
    Recites allowed G j J (BestFirst.onSearch (H := H) x) K :=
  ensures_onSearch_alone h

theorem look {f : Run E P → α} :
    Recites allowed G j J (BestFirst.look (H := H) (L := L) f) fun _ => J :=
  fun _ hs => hs

theorem get {f : Expedition H E P L → ExpeditionM H E P L α} (h : ∀ s, Recites allowed G j J (f s) K) :
    Recites allowed G j J (MonadState.get >>= f) K :=
  fun s hs => h s s hs

theorem modifying {f : Expedition H E P L → Expedition H E P L} (h : ∀ s, (f s).search = s.search) :
    Recites allowed G j J (modify f) fun _ => J :=
  Ensures.modifying fun s hs => h s ▸ hs

theorem loop {ifDone : β} {iterate : α → ExpeditionM H E P L (Turn α β)} {p : Phrase}
    {M : β → Run E P → Prop} (finish : ∀ r, r.Owes G j p → M ifDone r)
    (step : ∀ a, Recites allowed G j (Run.Owes G j p) (iterate a)
      (Ensures.onTurn (fun _ => Run.Owes G j p) M))
    (budget : Nat) (a : α) :
    Recites allowed G j (Run.Owes G j p) (Statewalk.loop (·.search.run.done) ifDone iterate budget a) M := by
  refine Ensures.loop
    (fun _ (s : Expedition H E P L) => s.search.Heeded allowed (Run.Owes G j p)) ?_ ?_ ?_ budget a
  · exact fun a s hs _ => hs.imp finish
  · exact fun a s hs => hs.run.brokenOff allowed _
  · intro a
    apply (Ensures.of_imp (step a) fun s hs => hs.1).imp
    intro turn s h
    cases turn <;> exact h

end Recites

section Heuristic

variable [Heuristic H E P]

omit restrained [Checkable E P] in
theorem recites_offerCurrent {p : Phrase} :
    Recites allowed G j (Run.Owes G j p) (offerCurrent (H := H) (E := E) (P := P) (L := L))
      fun _ => Run.Owes G j p := by
  intro s hs
  obtain ⟨stored, strategy, snapshot, offered, -⟩ | unsupported | ⟨fault, -, failed⟩ := offerCurrent_cases s
  · rw [offered]
    exact hs
  · rw [unsupported]
    exact hs.run.brokenOff allowed _
  · rw [failed]
    exact hs.run.brokenOff allowed _

omit [Checkable E P] in
theorem recites_store {p : Phrase} :
    Recites allowed G j (Run.Owes G j (maybe .stateStored * p)) (store (H := H) (E := E) (P := P) (L := L))
      fun _ => Run.Owes G j p := by
  apply Recites.bind recites_offerCurrent
  intro stored
  split
  · exact .onSearch (recites_announce restrained (by decide) (say_mul_le_maybe_mul _ _))
  · exact .pure fun _ h => h.mono (le_maybe_mul _ _)

omit [Checkable E P] in
theorem recites_storeWithinLimit {p : Phrase} :
    Recites allowed G j (Run.Owes G j (maybe .searchConstraintHit * (maybe .stateStored * p)))
      (storeWithinLimit (H := H) (E := E) (P := P) (L := L)) fun _ => Run.Owes G j p := by
  apply Recites.get
  intro s
  split
  · apply Recites.bind (.onSearch (recites_announceConstraint restrained _ (say_mul_le_maybe_mul _ _)))
    exact fun _ => recites_store restrained
  · exact (recites_store restrained).of_le (le_maybe_mul _ _)

omit [Checkable E P] in
theorem recites_consider {p : Phrase} :
    Recites allowed G j (Run.Owes G j (maybe .searchConstraintHit * (maybe .stateStored * p)))
      (consider (H := H) (E := E) (P := P) (L := L)) fun _ => Run.Owes G j p := by
  apply Recites.bind (.onSearch recites_isNew)
  intro isNew
  apply Recites.bind .look
  intro limit
  apply Recites.bind .look
  intro depth
  split
  · refine .onSearch (recites_announceConstraint restrained _ ?_)
    exact (mul_mono le_rfl (le_maybe_mul _ _)).trans (say_mul_le_maybe_mul _ _)
  · apply Recites.bind .look
    intro sensitive
    split
    · exact recites_storeWithinLimit restrained
    · exact .pure fun _ h => h.mono ((le_maybe_mul _ _).trans (le_maybe_mul _ _))

theorem recites_receive :
    Recites allowed G j (Run.Owes G j (receivePhrase * leaving))
      (receive (H := H) (E := E) (P := P) (L := L)) fun _ => Run.Owes G j leaving := by
  apply Recites.bind .look
  intro violated
  split
  · apply Recites.bind (.onSearch recites_isNew)
    intro _
    apply Recites.bind (.onSearch (recites_announceViolation restrained violated_le))
    intro _
    apply Recites.bind (.onSearch recites_endsAtViolation)
    intro ends
    split
    · exact .pure fun _ h => h
    · apply Recites.bind (.onSearch (recites_silent fun _ => by rfl))
      exact fun _ => .pure fun _ h => h
  · apply Recites.bind .look
    intro engine
    refine Recites.of_le ?_ considered_le
    split
    · exact .pure fun _ h => h.mono ((le_maybe_mul _ _).trans (le_maybe_mul _ _))
    · apply Recites.bind (recites_consider restrained)
      exact fun _ => .pure fun _ h => h

/-- The expansion goes on, or another state may be expanded. -/
def owesAfterSuccessor (G : Phrase) (j : Journal) : Turn Unit (Option StopReason) → Run E P → Prop :=
  Ensures.onTurn (fun _ => Run.Owes G j ahead) fun _ => Run.Owes G j expanded

omit [Checkable E P] [Heuristic H E P] in
theorem recites_leave :
    Recites allowed G j (Run.Owes G j leaving) (leave (H := H) (E := E) (P := P) (L := L))
      (owesAfterSuccessor G j) := by
  apply Recites.bind (.onSearch recites_hasMemory)
  intro enough
  split
  · refine Recites.of_le ?_ (le_maybe_mul _ _)
    apply Recites.bind (.onSearch recites_backtrack)
    intro moved
    split
    · apply Recites.bind (.onSearch recites_ascend)
      intro _
      apply Recites.bind (.onSearch (recites_announce restrained (by decide) (le_add_left _ _)))
      exact fun _ => .pure fun _ h => h
    · exact .pure fun _ h => h.mono (le_add_right _ _)
  · apply Recites.bind (.onSearch (recites_announceMemoryLimit restrained (say_mul_le_maybe_mul _ _)))
    exact fun _ => .pure fun _ h => h.mono (le_add_right _ _)

theorem recites_generate :
    Recites allowed G j (Run.Owes G j ahead) (generate (H := H) (E := E) (P := P) (L := L) ())
      (owesAfterSuccessor G j) := by
  apply Recites.bind (.onSearch (recites_pollProbe restrained polled_le))
  intro _
  apply Recites.bind (.onSearch recites_forward)
  intro moved
  split
  · apply Recites.bind (.onSearch recites_descend)
    intro _
    apply Recites.bind (.onSearch (recites_announce restrained (by decide) (le_add_left _ _)))
    intro _
    apply Recites.bind (recites_receive restrained)
    intro ends
    split
    · exact .pure fun _ h => h.mono ((le_add_right _ _).trans (le_maybe_mul _ _))
    · exact recites_leave restrained
  · apply Recites.bind (.onSearch (recites_announce restrained (by decide) (le_add_right _ _)))
    exact fun _ => .pure fun _ h => h

theorem recites_expand (budget : Nat) :
    Recites allowed G j (Run.Owes G j ahead) (expand (H := H) (E := E) (P := P) (L := L) budget)
      fun _ => Run.Owes G j expanded :=
  .loop (M := fun _ => Run.Owes G j expanded) (fun _ h => h.mono expanded_le)
    (fun _ => recites_generate restrained) budget ()

theorem recites_expandBest (budget : Nat) :
    Recites allowed G j (Run.Owes G j expanded) (expandBest (H := H) (E := E) (P := P) (L := L) budget ())
      (Run.owesAfter G j expanded) := by
  have returned (entry : Entry) (silent : entry.bulletin? = none) (snapshot : Snapshot (Engine.Saved E)) :
      Recites allowed G j (Run.Owes G j expanded) (do
        onSearch (change (Run.record entry))
        onSearch (restore snapshot name)
        onSearch (announce .stateRestored)
        expandAndGoOn (H := H) (E := E) (P := P) (L := L) budget) (Run.owesAfter G j expanded) := by
    apply Recites.bind (.onSearch (.change fun r h => h.congr (by simp [Run.record, silent])))
    intro _
    apply Recites.bind (.onSearch ((recites_restore snapshot name).imp fun _ _ h => h.1))
    intro _
    apply Recites.bind (.onSearch (recites_announce restrained (by decide) restored_le))
    intro _
    apply Recites.bind (recites_expand restrained budget)
    intro reason
    cases reason with
    | some reason => exact .pure fun _ h => h.mono finished_le
    | none => exact .pure fun _ h => h
  apply Ensures.get
  intro s hs
  cases s.strategy.frontier.pop? with
  | none => exact .pure fun _ eq => eq ▸ hs.imp fun _ h => h.mono finished_le
  | some best =>
    apply Ensures.set
    rintro _ rfl
    exact returned _ rfl best.1.snapshot _ hs

omit restrained [Checkable E P] [Listener E P L] in
/-- An empty queue with room takes the first state that is offered. -/
theorem offerCurrent_of_empty {s : Expedition H E P L} (empty : s.strategy.frontier.entries = [])
    (room : s.search.run.config.queueLimit ≠ some 0) :
    (∃ strategy, offerCurrent s = .ok true { s with strategy }) ∨ ∃ f, offerCurrent s = .error f s := by
  have notFull : s.strategy.frontier.isFull s.search.run.config.queueLimit = false := by
    unfold Frontier.isFull
    split
    · rename_i n limit
      rw [limit] at room
      simp only [Frontier.size, empty, List.length_nil, decide_eq_false_iff_not]
      intro le
      exact room (by simp_all)
    · rfl
  simp only [offerCurrent, EStateM.get_bind_apply]
  cases Engine.snapshot? s.search.run.engine with
  | none => exact .inr ⟨_, rfl⟩
  | some snapshot =>
    simp only
    cases (Heuristic.priority s.search.run s.strategy.heuristic).1 with
    | error fault => exact .inr ⟨_, rfl⟩
    | ok priority =>
      simp only [Frontier.offer?, notFull, Bool.false_eq_true, if_false]
      exact .inl ⟨_, rfl⟩

omit [Checkable E P] in
/-- The start is always stored: the queue is empty, and no valid limit keeps it so. -/
theorem ensures_store_of_empty {p : Phrase} :
    Ensures
      (fun s : Expedition H E P L => s.search.Heeded allowed
        (fun r => r.Owes G j (say .stateStored * p) ∧ r.config.queueLimit ≠ some 0) ∧
        s.strategy.frontier.entries = [])
      (store (H := H) (E := E) (P := P) (L := L))
      (fun _ s => s.search.Heeded allowed (Run.Owes G j p))
      fun f s => s.search.run.BrokenOff allowed G j f := by
  rintro s ⟨hs, empty⟩
  simp only [store, bind, EStateM.bind]
  obtain ⟨strategy, offered⟩ | ⟨f, failed⟩ := offerCurrent_of_empty empty hs.run.2
  · rw [offered]
    exact Recites.onSearch (recites_announce restrained (by decide) le_rfl) _ (hs.imp fun _ h => h.1)
  · rw [failed]
    exact hs.run.1.brokenOff allowed f

theorem recites_explore (budget : Nat) :
    Recites allowed grammar j (Run.Prepared grammar j)
      (explore (H := H) (E := E) (P := P) (L := L) budget) fun _ => Run.Said grammar j := by
  let roomy (p : Phrase) (r : Run E P) : Prop := r.Owes grammar j p ∧ r.config.queueLimit ≠ some 0
  let isEmpty (b : BestFirst H E) : Prop := b.frontier.entries = []
  have cleared : Ensures (fun s : Expedition H E P L => s.search.Heeded allowed (Run.Prepared grammar j))
      (modify fun s => { s with strategy := s.strategy.clear })
      (fun _ s => s.search.Heeded allowed (Run.Prepared grammar j) ∧ isEmpty s.strategy)
      fun f s => s.search.run.BrokenOff allowed grammar j f :=
    .modifying fun s hs => ⟨hs, rfl⟩
  have leveled : Search.Recites (L := L) allowed grammar j (Run.Prepared grammar j)
      (change fun r => { r with depth := Engine.pathLength r.engine }) fun _ => roomy grammar :=
    .change fun r h => ⟨h.1.congr rfl, h.2.1⟩
  have started : Search.Recites allowed grammar j (roomy grammar)
      (announce (E := E) (P := P) (L := L) .searchStarted) fun _ => roomy (say .stateStored * ahead) :=
    recites_announce_while restrained (fun c _ => c.queueLimit ≠ some 0) (by decide) started_le
  have finished (reason : StopReason) :
      Recites (H := H) allowed grammar j (Run.Owes grammar j (say .searchFinished)) (do
        onSearch (announce (E := E) (P := P) (L := L) .searchFinished)
        return reason) fun _ => Run.Said grammar j :=
    (Recites.onSearch (recites_finish restrained)).bind fun _ => .pure fun _ h => h
  apply Ensures.bind cleared
  intro _
  apply Ensures.bind (ensures_onSearch leveled isEmpty)
  intro _
  apply Ensures.bind (ensures_onSearch started isEmpty)
  intro _
  apply Ensures.bind (ensures_store_of_empty restrained)
  intro _
  apply Recites.bind (Recites.modifying fun s => by split <;> rfl)
  intro _
  apply Recites.bind (recites_expand restrained budget)
  intro reason
  cases reason with
  | some reason => exact (finished reason).of_le finished_le
  | none =>
    apply Recites.bind
    · exact .loop (M := fun _ => Run.Owes grammar j (say .searchFinished))
        (fun _ h => h.mono finished_le) (fun _ => recites_expandBest restrained budget) budget ()
    exact finished

theorem recites_run (budget : Nat) :
    Recites allowed grammar j (Run.Prepared grammar j)
      (BestFirst.run (H := H) (E := E) (P := P) (L := L) budget) fun _ => Run.Said grammar j := by
  apply Recites.bind
  · exact .onSearch (recites_launch (fun c v => c.queueLimit ≠ some 0 ∧ v = false) name)
  intro _
  apply Recites.bind (recites_explore restrained budget)
  exact fun reason => .onSearch (recites_conclude reason)

end Heuristic

end BestFirst

/-! ## All strategies -/

/-- The announcements since the journal was `j` are a word of the grammar, with the start of the search
    at its start only, and the end of the search at its end only. -/
def Run.Recited (G : Phrase) (j : Journal) (r : Run E P) : Prop :=
  ∃ w, r.journal.events = j.events ++ w ∧ w ∈ G.words ∧ Framed w

omit restrained [Engine E] [Checkable E P] [Listener E P L] in
theorem Run.Said.recited {course : Phrase} {r : Run E P} (h : r.Said (search course) j)
    (started : .searchStarted ∉ course.events) (finished : .searchFinished ∉ course.events) :
    r.Recited (search course) j := by
  obtain ⟨w, events, word⟩ := h
  exact ⟨w, events, word, framed_of_mem_search word started finished⟩

/-- However the run goes, its announcements follow the grammar. -/
def Search.Follows (allowed : L → Prop) (G : Phrase) (s : Search E P L) (x : SearchM E P L Outcome) :
    Prop :=
  Ensures (· = s) x (fun _ t => t.run.Recited G s.run.journal)
    fun f t => t.run.BrokenOff allowed G s.run.journal f

@[inherit_doc Search.Follows]
def Expedition.Follows (allowed : L → Prop) (G : Phrase) (x : Expedition H E P L)
    (run : ExpeditionM H E P L Outcome) : Prop :=
  Ensures (· = x) run (fun _ y => y.search.run.Recited G x.search.run.journal)
    fun f y => y.search.run.BrokenOff allowed G x.search.run.journal f

omit restrained [Engine E] [Checkable E P] in
theorem Search.Recites.follows {course : Phrase} {s : Search E P L} {x : SearchM E P L Outcome}
    (h : Recites allowed (Phrase.search course) s.run.journal
      (Run.Prepared (Phrase.search course) s.run.journal) x
      fun _ => Run.Said (Phrase.search course) s.run.journal)
    (start : s.Heeded allowed (Run.Prepared (Phrase.search course) s.run.journal))
    (started : .searchStarted ∉ course.events) (finished : .searchFinished ∉ course.events) :
    s.Follows allowed (Phrase.search course) x :=
  (Ensures.of_eq h start).imp fun _ _ ht => ht.run.recited started finished

omit restrained [Engine E] [Checkable E P] [Listener E P L] in
theorem Run.prepared {r : Run E P} (valid : r.config.validate = .ok ()) (calm : r.atViolation = false)
    (G : Phrase) : r.Prepared G r.journal := by
  refine ⟨.self G r, ?_, calm⟩
  intro closed
  have zero : r.config.zeroLimit? ≠ none := by
    unfold Config.zeroLimit?
    split_ifs <;> simp_all
  unfold Config.validate at valid
  split at valid
  · cases valid
  · contradiction

/-- For every engine, every valid configuration, all properties and all restrained listeners, each
    strategy announces its events in the order of its grammar.  A run that fails has announced a part
    of a word, and the end only if it failed in telling a listener of it. -/
theorem announcements_follow_grammar [Heuristic H E P] {s : Search E P L}
    (listeners : ∀ l ∈ s.listeners, allowed l) (reporter : ∀ l ∈ s.reporter, allowed l)
    (valid : s.run.config.validate = .ok ()) (calm : s.run.atViolation = false) (budget : Nat) :
    s.Follows allowed DepthFirst.grammar (DepthFirst.run budget) ∧
      s.Follows allowed Replay.grammar (Replay.run budget) ∧
      s.Follows allowed Simulation.grammar (Simulation.run budget) ∧
      (∀ pathLimit, s.Follows allowed RandomRestart.grammar (RandomRestart.run pathLimit budget)) ∧
      ∀ b : BestFirst H E, Expedition.Follows allowed BestFirst.grammar { strategy := b, search := s }
        (BestFirst.run budget) := by
  have start (G : Phrase) : s.Heeded allowed (Run.Prepared G s.run.journal) :=
    ⟨listeners, reporter, Run.prepared valid calm G⟩
  refine ⟨?_, ?_, ?_, fun pathLimit => ?_, fun b => ?_⟩
  · exact (DepthFirst.recites_run restrained budget).follows (start _) (by decide) (by decide)
  · exact (Replay.recites_run restrained budget).follows (start _) (by decide) (by decide)
  · exact (Simulation.recites_run restrained budget).follows (start _) (by decide) (by decide)
  · exact (RandomRestart.recites_run restrained pathLimit budget).follows (start _) (by decide) (by decide)
  · have recited := Ensures.of_eq (s := { strategy := b, search := s })
      (BestFirst.recites_run (H := H) restrained budget) (start _)
    exact recited.imp fun _ _ ht => ht.run.recited (by decide) (by decide)

end Strategies

theorem meddled_announcements_follow_grammar : ∃ e s, GraphEngine.ofGraph .tangle = .ok e ∧
    Search.ofEngine (e.withRandomChoices 3) { continueOnViolation := true, matchByMinDepth := true } = .ok s ∧
    ∀ budget,
      let t : Search GraphEngine Subject (RuleListener Subject) :=
        (s.addProperty (.forbidden { states := [1] })).addListener meddler
      t.Follows RuleListener.isMild DepthFirst.grammar (DepthFirst.run budget) ∧
        t.Follows RuleListener.isMild RandomRestart.grammar (RandomRestart.run 5 budget) ∧
        Expedition.Follows RuleListener.isMild BestFirst.grammar
          { strategy := { heuristic := (⟨⟩ : DeepestFirst) }, search := t } (BestFirst.run budget) := by
  obtain ⟨e, made⟩ : ∃ e, GraphEngine.ofGraph .tangle = .ok e := ⟨_, rfl⟩
  refine ⟨e, .fresh (e.withRandomChoices 3) _, made, rfl, ?_⟩
  intro budget t
  have listeners : t.listeners = [meddler] := rfl
  have valid : t.run.config.validate = .ok () := rfl
  obtain ⟨depthFirst, -, -, randomRestart, bestFirst⟩ := announcements_follow_grammar
    (H := DeepestFirst) (RuleListener.restrained _) (s := t)
    (by simpa [listeners] using meddler_isMild) nofun valid rfl budget
  exact ⟨depthFirst, randomRestart 5, bestFirst _⟩

end Statewalk
