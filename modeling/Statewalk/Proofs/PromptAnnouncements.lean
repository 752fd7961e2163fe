import Statewalk.Proofs.Monitors
import Statewalk.Strategy.RandomRestart
import Statewalk.Strategy.Replay
import Statewalk.Strategy.Simulation

/-! # Prompt announcements

Replay, simulation and random walks announce every violation that they record, each one once and before the
engine moves again.  This holds for any engine and for any properties, whatever they gather or look at, and
whatever restrained listeners do meanwhile.  If violations end the search, it ends with one if and only if it
recorded one.
-/

namespace Statewalk

/-! ## The monitor -/

/-- The number of the violation that the entry records. -/
def Entry.recorded? : Entry → Option Nat
  | .violated id _ _ => some id
  | _ => none

/-- The number of the violation that the entry announces, which is the latest. -/
def Entry.announcedViolation? : Entry → Option Nat
  | .announced b => if b.event = .propertyViolated then some b.violations else none
  | _ => none

/-- How many violations were recorded, and whether the latest has still to be announced. -/
structure ViolationWatch where
  count : Nat := 0
  pending : Bool := false
deriving DecidableEq

/-- Watches over violations: they are numbered in order, and each one is announced before the next is recorded
    and before the engine moves. -/
def Monitor.violations : Monitor ViolationWatch where
  start := {}
  read w
    | .violated id _ _ =>
      if w.pending = false ∧ id = w.count + 1 then some ⟨w.count + 1, true⟩ else none
    | .announced b =>
      if b.event = .propertyViolated then
        if w.pending = true ∧ b.violations = w.count then some ⟨w.count, false⟩ else none
      else some w
    | .moved .. => if w.pending = true then none else some w
    | _ => some w
  aside w e aside := by cases e <;> first | rfl | cases aside
  chore w e chore := by cases e <;> first | rfl | cases chore
  crossed _ _ _ _ := rfl

/-- A move is made only when nothing is to be announced. -/
theorem ViolationWatch.read_moved {w : ViolationWatch} (paid : w.pending = false) (move : Move)
    (depth : Nat) (done : Bool) :
    Monitor.violations.read w (.moved move depth done) = some w := by
  simp [Monitor.violations, paid]

/-- The number that is still to be announced. -/
def ViolationWatch.owed (w : ViolationWatch) : List Nat :=
  if w.pending then [w.count] else []

namespace Monitor

variable {w w' : ViolationWatch} {e : Entry} {es : List Entry}

/-- An entry that is accepted records a violation with the next number, announces the one that is owed, or
    does neither. -/
theorem read_violations (h : violations.read w e = some w') :
    w'.count = w.count + e.recorded?.toList.length ∧
      e.recorded?.toList = List.range' (w.count + 1) e.recorded?.toList.length ∧
      w.owed ++ e.recorded?.toList = e.announcedViolation?.toList ++ w'.owed := by
  cases e with
  | violated id name depth =>
    simp only [violations] at h
    split_ifs at h with next
    obtain rfl := Option.some.inj h
    simp [Entry.recorded?, Entry.announcedViolation?, ViolationWatch.owed, next]
  | announced b =>
    simp only [violations] at h
    split_ifs at h with violated due
    all_goals
      obtain rfl := Option.some.inj h
      simp_all [Entry.recorded?, Entry.announcedViolation?, ViolationWatch.owed]
  | moved move depth done =>
    simp only [violations] at h
    split_ifs at h
    obtain rfl := Option.some.inj h
    simp [Entry.recorded?, Entry.announcedViolation?]
  | _ =>
    obtain rfl := Option.some.inj h
    simp [Entry.recorded?, Entry.announcedViolation?]

/-- Violations are recorded in order, and announced in the same order up to one that is still owed. -/
theorem reads_violations (h : violations.reads w es = some w') :
    w'.count = w.count + (es.filterMap Entry.recorded?).length ∧
      es.filterMap Entry.recorded? = List.range' (w.count + 1) (es.filterMap Entry.recorded?).length ∧
      w.owed ++ es.filterMap Entry.recorded? = es.filterMap Entry.announcedViolation? ++ w'.owed := by
  induction es generalizing w with
  | nil =>
    obtain rfl := Option.some.inj h
    simp
  | cons e es ih =>
    obtain ⟨ψ, first, rest⟩ := reads_cons h
    obtain ⟨count, numbers, owed⟩ := read_violations first
    obtain ⟨counts, numbersRest, owedRest⟩ := ih rest
    have recorded : (e :: es).filterMap Entry.recorded? = e.recorded?.toList ++ es.filterMap Entry.recorded? := by
      cases h : e.recorded? <;> simp [h]
    have announced : (e :: es).filterMap Entry.announcedViolation? =
        e.announcedViolation?.toList ++ es.filterMap Entry.announcedViolation? := by
      cases h : e.announcedViolation? <;> simp [h]
    rw [recorded, announced, List.length_append]
    refine ⟨by omega, ?_, ?_⟩
    · calc e.recorded?.toList ++ es.filterMap Entry.recorded?
        _ = List.range' (w.count + 1) e.recorded?.toList.length ++
              List.range' (ψ.count + 1) (es.filterMap Entry.recorded?).length := by
            rw [← numbers, ← numbersRest]
        _ = _ := by
            rw [count, Nat.add_right_comm, List.range'_append_1]
    · rw [← List.append_assoc, owed, List.append_assoc, owedRest, List.append_assoc]

/-- What is owed is announced before the engine moves again. -/
theorem reads_pending (pending : w.pending = true) (paid : w'.pending = false)
    (h : violations.reads w es = some w') :
    ∃ quiet b rest, es = quiet ++ .announced b :: rest ∧ b.event = .propertyViolated ∧
      b.violations = w.count ∧ quiet.filterMap Entry.move? = [] := by
  induction es with
  | nil =>
    obtain rfl := Option.some.inj h
    rw [pending] at paid
    cases paid
  | cons e es ih =>
    obtain ⟨ψ, first, rest⟩ := reads_cons h
    -- Either the entry is the announcement, or the monitor goes on as before.
    have next : (∃ b, e = .announced b ∧ b.event = .propertyViolated ∧ b.violations = w.count) ∨
        (e.move? = none ∧ ψ = w) := by
      cases e with
      | violated id name depth => simp [violations, pending] at first
      | moved move depth done => simp [violations, pending] at first
      | announced b =>
        simp only [violations] at first
        split_ifs at first with violated due
        · exact .inl ⟨b, rfl, violated, due.2⟩
        · exact .inr ⟨rfl, (Option.some.inj first).symm⟩
      | _ => exact .inr ⟨rfl, (Option.some.inj first).symm⟩
    rcases next with ⟨b, rfl, violated, number⟩ | ⟨still, rfl⟩
    · exact ⟨[], b, es, rfl, violated, number, rfl⟩
    · obtain ⟨quiet, b, after, rfl, violated, number, unmoved⟩ := ih rest
      exact ⟨e :: quiet, b, after, rfl, violated, number, by simp [still, unmoved]⟩

end Monitor

/-! ## Books -/

namespace Run

variable {E P : Type} {r r' : Run E P}

/-- What the books are about is as before, and a search that is done stays so. -/
structure KeepsBooks (r r' : Run E P) : Prop where
  config : r'.config = r.config
  atViolation : r'.atViolation = r.atViolation
  violations : r'.violations = r.violations
  done : r.done = true → r'.done = true

theorem Persists.keepsBooks (h : r.Persists r') : r.KeepsBooks r' :=
  ⟨h.config, h.atViolation, h.violations, h.done⟩

end Run

namespace ViolationWatch

variable {E P : Type}

/-- The predicate is about the books of a run only. -/
def Bookish (J : ViolationWatch → Run E P → Prop) : Prop :=
  ∀ w r r', J w r → r.KeepsBooks r' → J w r'

/-- The watch has counted the violations of the run, which are numbered in order. -/
structure Counts (c : Config) (w : ViolationWatch) (r : Run E P) : Prop where
  config : r.config = c
  count : w.count = r.violations.length
  ids : r.violations.map (·.id) = List.range' 1 r.violations.length

/-- Nothing is to be announced, and no violation has ended the search. -/
structure Calm (c : Config) (w : ViolationWatch) (r : Run E P) : Prop extends Counts c w r where
  paid : w.pending = false
  single : c.continueOnViolation = false → r.violations = []

/-- Calm, and the run is not at a violation. -/
structure Clear (c : Config) (w : ViolationWatch) (r : Run E P) : Prop extends Calm c w r where
  clear : r.atViolation = false

/-- The properties were checked: a violation that was found is to be announced, and ends the search if it
    does not go on after violations. -/
structure Checked (c : Config) (w : ViolationWatch) (r : Run E P) : Prop extends Counts c w r where
  pending : w.pending = r.atViolation
  found : r.atViolation = true → r.violations ≠ [] ∧ (c.continueOnViolation = false → r.done = true)
  clear : r.atViolation = false → c.continueOnViolation = false → r.violations = []

/-- The violation was announced. -/
structure Struck (c : Config) (w : ViolationWatch) (r : Run E P) : Prop extends Counts c w r where
  paid : w.pending = false
  found : r.atViolation = true
  some : r.violations ≠ []
  single : c.continueOnViolation = false → r.done = true

/-- Nothing is to be announced, and the reason is a violation if one has ended the search. -/
structure Closed (c : Config) (reason : StopReason) (w : ViolationWatch) (r : Run E P) : Prop
    extends Counts c w r where
  paid : w.pending = false
  single : c.continueOnViolation = false → (reason = .propertyViolated ↔ r.violations ≠ [])

variable {c : Config} {w : ViolationWatch} {r r' : Run E P} {reason : StopReason}

theorem Bookish.aloof {J : ViolationWatch → Run E P → Prop} (h : Bookish J) : Search.Aloof J :=
  fun w r r' hr persists => h w r r' hr persists.keepsBooks

theorem bookish_counts : Bookish (Counts (E := E) (P := P) c) := by
  intro w r r' h keeps
  exact ⟨keeps.config.trans h.config, by rw [keeps.violations, h.count], by rw [keeps.violations, h.ids]⟩

theorem bookish_calm : Bookish (Calm (E := E) (P := P) c) := by
  intro w r r' h keeps
  exact ⟨bookish_counts w r r' h.toCounts keeps, h.paid, by rw [keeps.violations]; exact h.single⟩

theorem bookish_clear : Bookish (Clear (E := E) (P := P) c) := by
  intro w r r' h keeps
  exact ⟨bookish_calm w r r' h.toCalm keeps, by rw [keeps.atViolation, h.clear]⟩

theorem bookish_checked : Bookish (Checked (E := E) (P := P) c) := by
  intro w r r' h keeps
  refine ⟨bookish_counts w r r' h.toCounts keeps, by rw [keeps.atViolation, h.pending], ?_, ?_⟩
  · rw [keeps.atViolation, keeps.violations]
    exact fun found => ⟨(h.found found).1, fun single => keeps.done ((h.found found).2 single)⟩
  · rw [keeps.atViolation, keeps.violations]
    exact h.clear

theorem bookish_struck : Bookish (Struck (E := E) (P := P) c) := by
  intro w r r' h keeps
  exact ⟨bookish_counts w r r' h.toCounts keeps, h.paid, by rw [keeps.atViolation, h.found],
    by rw [keeps.violations]; exact h.some, fun single => keeps.done (h.single single)⟩

theorem bookish_closed : Bookish (Closed (E := E) (P := P) c reason) := by
  intro w r r' h keeps
  exact ⟨bookish_counts w r r' h.toCounts keeps, h.paid, by rw [keeps.violations]; exact h.single⟩

theorem Calm.closed (h : Calm c w r) (other : reason ≠ .propertyViolated) : Closed c reason w r :=
  ⟨h.toCounts, h.paid, fun single => by simp [other, h.single single]⟩

theorem Struck.closed (h : Struck c w r) : Closed c .propertyViolated w r :=
  ⟨h.toCounts, h.paid, fun _ => by simp [h.some]⟩

theorem Checked.calm (h : Checked c w r) (clear : r.atViolation = false) : Clear c w r :=
  ⟨⟨h.toCounts, h.pending.trans clear, h.clear clear⟩, clear⟩

theorem Clear.checked (h : Clear c w r) : Checked c w r :=
  ⟨h.toCounts, h.paid.trans h.clear.symm, by simp [h.clear], fun _ => h.single⟩

/-- Recording a violation. -/
theorem Clear.violate [Engine E] [Property P] (h : Clear c w r) (v : Watched P) :
    Checked c ⟨w.count + 1, true⟩ (r.violate v) := by
  have ids := h.ids
  refine ⟨⟨h.config, ?_, ?_⟩, rfl, ?_, ?_⟩
  · simp [Run.violate, Run.record, h.count]
  · simp [Run.violate, Run.record, ids, List.range'_concat]
    omega
  · intro _
    refine ⟨by simp [Run.violate, Run.record], fun single => ?_⟩
    simp [Run.violate, Run.record, h.config, single]
  · intro clear
    cases clear

end ViolationWatch

/-! ## Operations -/

namespace Search

open ViolationWatch

variable {E P L α : Type} {allowed : L → Prop} {c : Config} {j : Journal}
  {J : ViolationWatch → Run E P → Prop}

section Books

variable (bookish : Bookish J)

include bookish

/-- A change that is not in the books. -/
theorem accords_unbooked {f : Run E P → Run E P} (keeps : ∀ r : Run E P, r.KeepsBooks (f r))
    (silent : ∀ r, (f r).journal = r.journal) :
    Accords (L := L) allowed .violations j J (change f) fun _ => J :=
  .change_silent silent fun w r h => bookish w r _ h (keeps r)

theorem accords_takeBacktrackRequest :
    Accords (L := L) allowed .violations j J (update Run.takeBacktrackRequest) fun _ => J :=
  accords_idle bookish.aloof (fun _ => ⟨rfl, rfl, rfl, rfl, id⟩) fun _ _ => .of_eq rfl

theorem accords_descend : Accords (L := L) allowed .violations j J (onRun Run.descend) fun _ => J := by
  apply Accords.onRun
  intro w r h
  rw [Run.descend_apply]
  cases addWords r.depth 1 with
  | ok d => exact ⟨w, .of_eq rfl, bookish w r _ h ⟨rfl, rfl, rfl, id⟩⟩
  | error f => rfl

theorem accords_ascend : Accords (L := L) allowed .violations j J (onRun Run.ascend) fun _ => J := by
  apply Accords.onRun
  intro w r h
  rw [Run.ascend_apply]
  by_cases root : r.depth = 0
  · simp only [root, if_true]
  · simp only [root, if_false]
    exact ⟨w, .of_eq rfl, bookish w r _ h ⟨rfl, rfl, rfl, id⟩⟩

end Books

section Moves

variable [Engine E]

theorem accords_checkProperties [Checkable E P] :
    Accords (L := L) allowed .violations j (Clear (E := E) (P := P) c) (update Run.checkProperties)
      fun _ => Checked c := by
  apply Accords.update
  intro w r h
  obtain ⟨properties, held⟩ | ⟨properties, v, -, broken⟩ := Run.checkProperties_outcome r
  · rw [held]
    exact ⟨w, .of_eq rfl, bookish_checked w r _ h.checked ⟨rfl, rfl, rfl, id⟩⟩
  · have before : Clear c w { r with properties } := bookish_clear w r _ h ⟨rfl, rfl, rfl, id⟩
    rw [broken]
    refine ⟨⟨w.count + 1, true⟩, .record ?_, before.violate v⟩
    simp [Monitor.violations, h.paid, h.count]

omit [Engine E] in
/-- A move takes the run away from its violation. -/
theorem accords_clear : Accords (L := L) allowed .violations j (Calm (E := E) (P := P) c)
    (change fun r => { r with atViolation := false, lastQuery := none }) fun _ => Clear c :=
  .change_silent (fun _ => rfl) fun _ _ h => ⟨⟨⟨h.config, h.count, h.ids⟩, h.paid, h.single⟩, rfl⟩

theorem accords_forward [Checkable E P] :
    Accords (L := L) allowed .violations j (Calm (E := E) (P := P) c) forward fun _ => Checked c := by
  apply Accords.bind accords_clear
  intro _
  apply Accords.bind (K := fun _ => Clear c)
  · apply Accords.update
    intro w r h
    refine ⟨w, .stepForward (read_moved h.paid ..), bookish_clear w r _ h ?_⟩
    rw [Run.stepForward_eq]
    exact ⟨rfl, rfl, rfl, id⟩
  intro advanced
  exact accords_checkProperties.bind fun _ => .pure fun _ _ h => h

theorem accords_backtrack :
    Accords (L := L) allowed .violations j (Calm (E := E) (P := P) c) backtrack fun _ => Calm c := by
  apply Accords.bind (accords_unbooked (f := Run.forgetQuery) bookish_calm (fun _ => ⟨rfl, rfl, rfl, id⟩)
    fun _ => rfl)
  intro _
  apply Accords.update
  intro w r h
  exact ⟨w, .record (read_moved h.paid ..), bookish_calm w r _ h ⟨rfl, rfl, rfl, id⟩⟩

theorem accords_restore (snapshot : Snapshot (Engine.Saved E)) (strategy : String) :
    Accords (L := L) allowed .violations j (Calm (E := E) (P := P) c) (restore snapshot strategy)
      fun _ => Clear c := by
  apply Accords.bind accords_clear
  intro _
  apply Accords.bind (K := fun _ => Clear c)
  · apply Accords.update
    intro w r h
    exact ⟨w, .record (read_moved h.paid ..), bookish_clear w r _ h ⟨rfl, rfl, rfl, id⟩⟩
  intro accepted
  split
  · exact accords_unbooked bookish_clear (fun _ => ⟨rfl, rfl, rfl, id⟩) fun _ => rfl
  · exact .throw

omit [Engine E] in
/-- A violation that ends the search is the reason of its end; otherwise the search goes on calmly. -/
theorem accords_endsAtViolation :
    Accords (L := L) allowed .violations j (Struck (E := E) (P := P) c) (update Run.endsAtViolation)
      fun ends w r => if ends then Closed c .propertyViolated w r else Calm c w r := by
  apply Accords.update
  intro w r h
  refine ⟨w, .chore (.endsAtViolation r) w, ?_⟩
  cases done : r.done with
  | true =>
    simp only [Run.endsAtViolation, h.found, done, if_true]
    exact h.closed
  | false =>
    have goesOn : c.continueOnViolation ≠ false := by
      intro single
      rw [h.single single] at done
      cases done
    have kept := bookish_struck w r r.requestBacktrack h ⟨rfl, rfl, rfl, id⟩
    simp only [Run.endsAtViolation, h.found, done, if_true, Bool.false_eq_true, if_false]
    exact ⟨kept.toCounts, kept.paid, fun single => absurd single goesOn⟩

end Moves

/-- What an iteration comes to. -/
abbrev Turned (c : Config) (J : ViolationWatch → Run E P → Prop) (turn : Turn α StopReason)
    (w : ViolationWatch) (r : Run E P) : Prop :=
  match turn with
  | .again _ => J w r
  | .stop reason => Closed c reason w r

section Announcements

variable [Engine E] [Listener E P L] (restrained : Listener.Restrained (fun _ : Run E P => True) allowed)

include restrained

theorem accords_other (bookish : Bookish J) {event : Event} (other : event ≠ .propertyViolated) :
    Accords (L := L) allowed .violations j J (announce event) fun _ => J := by
  apply accords_announce restrained bookish.aloof
  intro w r n h
  exact ⟨w, by simp [Monitor.violations, Run.bulletin, other], h⟩

theorem accords_poll (bookish : Bookish J) :
    Accords (L := L) allowed .violations j J pollProbe fun _ => J := by
  apply accords_pollProbe restrained bookish.aloof bookish.aloof
  · intro w r n h
    exact ⟨w, by simp [Monitor.violations, Run.bulletin], h⟩
  · exact fun _ _ h => h

variable [Property P]

theorem accords_strike :
    Accords (L := L) allowed .violations j (fun w (r : Run E P) => Checked c w r ∧ r.atViolation = true)
      announceViolation fun _ => Struck c := by
  apply accords_announceViolation restrained bookish_struck.aloof
  rintro w r n ⟨h, found⟩
  obtain ⟨some, single⟩ := h.found found
  refine ⟨⟨w.count, false⟩, ?_, ⟨h.config, h.count, h.ids⟩, rfl, found, some, single⟩
  simp [Monitor.violations, Run.bulletin, h.pending, found, h.count]

/-- After a check, a violation is announced before anything else; without one all is clear. -/
theorem accords_ifViolated {x : Unit → SearchM E P L α} {y : SearchM E P L α}
    {K : α → ViolationWatch → Run E P → Prop}
    (struck : ∀ u, Accords allowed .violations j (Struck c) (x u) K)
    (clear : Accords allowed .violations j (Clear c) y K) :
    Accords allowed .violations j (Checked c)
      (look (·.atViolation) >>= fun violated => if violated then announceViolation >>= x else y) K := by
  apply Accords.bind .look
  intro violated
  cases violated with
  | true => exact (accords_strike restrained).bind struck
  | false => exact clear.of_imp fun _ _ h => h.1.calm h.2

theorem accords_settleViolation :
    Accords (L := L) allowed .violations j (Checked (E := E) (P := P) c) settleViolation
      fun ends w r => if ends then Closed c .propertyViolated w r else Calm c w r := by
  apply accords_ifViolated restrained
  · exact fun _ => accords_endsAtViolation
  · exact .pure fun _ _ h => h.toCalm

theorem accords_settleDeadEnd :
    Accords (L := L) allowed .violations j (Checked (E := E) (P := P) c) settleDeadEnd
      fun reason => Closed c reason := by
  apply Accords.bind (accords_other restrained bookish_checked (by simp))
  intro _
  apply accords_ifViolated restrained
  · exact fun _ => .pure fun _ _ h => h.closed
  · exact .pure fun _ _ h => h.toCalm.closed (by simp)

omit [Property P] in
/-- A loop whose iterations keep the books, and the announcement of its end. -/
theorem accords_repeatUntilDone {iterate : α → SearchM E P L (Turn α StopReason)}
    (calm : ∀ w r, J w r → Calm c w r)
    (step : ∀ a, Accords allowed .violations j J (iterate a) (Turned c J)) (budget : Nat) (a : α) :
    Accords allowed .violations j J (repeatUntilDone iterate budget a) fun reason => Closed c reason := by
  apply Accords.bind (K := fun reason => Closed c reason)
  · apply Accords.loop fun _ => J
    · exact fun _ w r h _ => (calm w r h).closed (by simp)
    · intro a
      apply ((step a).of_imp fun _ _ h => h.1).imp
      intro turn w r h
      cases turn <;> exact h
  intro reason
  apply Accords.bind (accords_other restrained bookish_closed (by simp))
  exact fun _ => .pure fun _ _ h => h

end Announcements

end Search

/-! ## Strategies -/

section Strategies

open Search ViolationWatch

variable {E P L : Type} [Engine E] [Checkable E P] [Listener E P L] {allowed : L → Prop} {c : Config}
  {j : Journal} (restrained : Listener.Restrained (fun _ : Run E P => True) allowed)

include restrained

omit [Checkable E P] in
/-- A search without matching sets its depth and announces its start. -/
theorem accords_launch (depth : Nat) {x : SearchM E P L StopReason}
    (explored : Accords allowed .violations j (Clear c) x fun reason => Closed c reason) :
    Accords allowed .violations j (Clear c) (do
      change (Run.setMatching false)
      change fun r => { r with depth }
      announce .searchStarted
      x) fun reason => Closed c reason := by
  apply Accords.bind (accords_unbooked bookish_clear (f := Run.setMatching false) (fun _ => ⟨rfl, rfl, rfl, id⟩)
    fun _ => rfl)
  intro _
  apply Accords.bind (accords_unbooked bookish_clear (f := fun r : Run E P => { r with depth })
    (fun _ => ⟨rfl, rfl, rfl, id⟩) fun _ => rfl)
  intro _
  apply Accords.bind (accords_other restrained bookish_clear (by simp))
  exact fun _ => explored

namespace Replay

theorem accords_advance :
    Accords (L := L) allowed .violations j (Calm (E := E) (P := P) c) advance (Turned c (Calm c)) := by
  apply Accords.bind accords_forward
  intro advanced
  split
  · apply Accords.bind (accords_descend bookish_checked)
    intro _
    apply Accords.bind (accords_other restrained bookish_checked (by simp))
    intro _
    apply Accords.bind (accords_settleViolation restrained)
    intro ends
    split
    · exact .pure fun _ _ h => h
    · apply Accords.bind .glance
      intro engine
      split
      · exact .pure fun _ _ h => Calm.closed h (by simp)
      · exact .pure fun _ _ h => h
  · apply Accords.bind (accords_settleDeadEnd restrained)
    exact fun reason => .pure fun _ _ h => h

theorem accords_iterate (u : Unit) :
    Accords (L := L) allowed .violations j (Calm (E := E) (P := P) c) (iterate u) (Turned c (Calm c)) := by
  apply Accords.bind (accords_poll restrained bookish_calm)
  intro _
  apply Accords.bind (accords_takeBacktrackRequest bookish_calm)
  intro requested
  split
  · apply Accords.bind accords_backtrack
    intro back
    split
    · apply Accords.bind (accords_ascend bookish_calm)
      intro _
      apply Accords.bind (accords_other restrained bookish_calm (by simp))
      exact fun _ => accords_advance restrained
    · exact .pure fun _ _ h => h.closed (by simp)
  · exact accords_advance restrained

theorem accords_explore (budget : Nat) :
    Accords (L := L) allowed .violations j (Clear (E := E) (P := P) c) (explore budget)
      fun reason => Closed c reason := by
  apply accords_launch restrained 0
  apply Accords.bind ((accords_repeatUntilDone restrained (fun _ _ h => h) (accords_iterate restrained) budget
    ()).of_imp fun _ _ h => h.toCalm)
  intro reason
  apply Accords.bind (accords_unbooked bookish_closed (f := Run.setMatching true) (fun _ => ⟨rfl, rfl, rfl, id⟩)
    fun _ => rfl)
  exact fun _ => .pure fun _ _ h => h

end Replay

namespace Simulation

theorem accords_iterate (u : Unit) :
    Accords (L := L) allowed .violations j (Calm (E := E) (P := P) c) (iterate u) (Turned c (Calm c)) := by
  apply Accords.bind (accords_poll restrained bookish_calm)
  intro _
  apply Accords.bind accords_forward
  intro advanced
  split
  · apply Accords.bind (accords_descend bookish_checked)
    intro _
    apply Accords.bind (accords_other restrained bookish_checked (by simp))
    intro _
    apply accords_ifViolated restrained
    · exact fun _ => .pure fun _ _ h => h.closed
    · apply Accords.bind .glance
      intro engine
      split
      · exact .pure fun _ _ h => h.toCalm.closed (by simp)
      · exact .pure fun _ _ h => h.toCalm
  · apply Accords.bind (accords_settleDeadEnd restrained)
    exact fun reason => .pure fun _ _ h => h

theorem accords_explore (budget : Nat) :
    Accords (L := L) allowed .violations j (Clear (E := E) (P := P) c) (explore budget)
      fun reason => Closed c reason := by
  apply accords_launch restrained 0
  exact (accords_repeatUntilDone restrained (fun _ _ h => h) (accords_iterate restrained) budget ()).of_imp
    fun _ _ h => h.toCalm

end Simulation

namespace RandomRestart

/-- At the depth limit the properties are checked although the engine did not move. -/
theorem accords_attempt :
    Accords (L := L) allowed .violations j (Clear (E := E) (P := P) c) attempt fun _ => Checked c := by
  apply Accords.bind .glance
  intro limit
  apply Accords.bind .glance
  intro depth
  apply Accords.bind (accords_takeBacktrackRequest bookish_clear)
  intro interrupted
  split
  · have noted : Accords (L := L) allowed .violations j (Clear (E := E) (P := P) c)
        (announceDepthLimit limit) fun _ => Clear c := by
      have kept : Accords (L := L) allowed .violations j (Clear (E := E) (P := P) c)
          (change fun r => { r with lastConstraint := some ("depth limit reached: " ++ toString limit) })
          fun _ => Clear c :=
        accords_unbooked bookish_clear (fun _ => ⟨rfl, rfl, rfl, id⟩) fun _ => rfl
      exact kept.bind fun _ => accords_other restrained bookish_clear (by simp)
    apply noted.bind
    intro _
    exact accords_checkProperties.bind fun _ => .pure fun _ _ h => h
  · split
    · exact .pure fun _ _ h => h.checked
    · apply Accords.bind (accords_forward.of_imp fun _ _ h => h.toCalm)
      intro advanced
      split
      · apply Accords.bind (accords_descend bookish_checked)
        intro _
        apply Accords.bind (accords_other restrained bookish_checked (by simp))
        exact fun _ => .pure fun _ _ h => h
      · apply Accords.bind (accords_other restrained bookish_checked (by simp))
        exact fun _ => .pure fun _ _ h => h

omit [Checkable E P] in
theorem accords_finishWalk (pathLimit : Nat) (start : Snapshot (Engine.Saved E)) (walks : Nat) :
    Accords (L := L) allowed .violations j (Calm (E := E) (P := P) c) (finishWalk pathLimit start walks)
      (Turned c (Clear c)) := by
  have counted : Accords (L := L) allowed .violations j (Calm (E := E) (P := P) c)
      (change fun r => r.record (.walked (walks + 1) r.depth)) fun _ => Calm c :=
    .change fun w r h => ⟨w, .record rfl, bookish_calm w r _ h ⟨rfl, rfl, rfl, id⟩⟩
  apply counted.bind
  intro _
  split
  · exact .pure fun _ _ h => h.closed (by simp)
  · apply Accords.bind (accords_restore start name)
    intro _
    have rechosen : Accords (L := L) allowed .violations j (Clear (E := E) (P := P) c)
        (change fun r => { r with engine := Engine.resetChoice r.engine }) fun _ => Clear c :=
      accords_unbooked bookish_clear (fun _ => ⟨rfl, rfl, rfl, id⟩) fun _ => rfl
    apply rechosen.bind
    intro _
    apply Accords.bind (accords_other restrained bookish_clear (by simp))
    exact fun _ => .pure fun _ _ h => h

theorem accords_iterate (pathLimit : Nat) (start : Snapshot (Engine.Saved E)) (walks : Nat) :
    Accords (L := L) allowed .violations j (Clear (E := E) (P := P) c) (iterate pathLimit start walks)
      (Turned c (Clear c)) := by
  apply Accords.bind (accords_poll restrained bookish_clear)
  intro _
  apply Accords.bind (accords_attempt restrained)
  intro attempt
  apply accords_ifViolated restrained
  · intro _
    apply Accords.bind accords_endsAtViolation
    intro ends
    split
    · exact .pure fun _ _ h => h
    · -- The request to step back is taken away: the walk is finished and not gone back on.
      apply Accords.bind (accords_takeBacktrackRequest bookish_calm)
      exact fun _ => accords_finishWalk restrained pathLimit start walks
  · apply Accords.bind .glance
    intro engine
    split
    · exact .pure fun _ _ h => h
    · exact (accords_finishWalk restrained pathLimit start walks).of_imp fun _ _ h => h.toCalm

theorem accords_explore (pathLimit budget : Nat) :
    Accords (L := L) allowed .violations j (Clear (E := E) (P := P) c) (explore pathLimit budget)
      fun reason => Closed c reason := by
  apply Accords.bind .glance
  intro engine
  split
  · exact .throw
  · rename_i start _
    apply accords_launch restrained start.pathLength
    exact accords_repeatUntilDone restrained (fun _ _ h => h.toCalm)
      (accords_iterate restrained (max pathLimit 1) start) budget 0

end RandomRestart

end Strategies

/-! ## Whole runs -/

variable {E P L : Type} [Engine E] [Checkable E P] [Listener E P L] {allowed : L → Prop} {s t : Search E P L}
  {o : Outcome}

/-- All violations recorded by a run from `s` to `t` are numbered in order and announced in that order, each
    one once.  Between the record of a violation and its announcement the engine does not move.  If violations
    end the search, the run ended with one just when it recorded one. -/
structure Search.AnnouncesPromptly (s t : Search E P L) (o : Outcome) : Prop where
  errors : o.errors = t.run.violations.length
  ids : t.run.violations.map (·.id) = List.range' 1 o.errors
  recorded : (t.run.journal.entriesFrom s.run.journal.length).filterMap Entry.recorded? = List.range' 1 o.errors
  announced :
    (t.run.journal.entriesFrom s.run.journal.length).filterMap Entry.announcedViolation? = List.range' 1 o.errors
  prompt : ∀ before id name depth after,
    t.run.journal.entriesFrom s.run.journal.length = before ++ .violated id name depth :: after →
      ∃ quiet b rest, after = quiet ++ .announced b :: rest ∧ b.event = .propertyViolated ∧ b.violations = id ∧
        quiet.filterMap Entry.move? = []
  single : s.run.config.continueOnViolation = false → (o.reason = .propertyViolated ↔ o.errors ≠ 0)

open ViolationWatch in
omit [Engine E] [Checkable E P] [Listener E P L] in
theorem Search.AnnouncesPromptly.of_conduct {strategy : String} {explore : SearchM E P L StopReason}
    (explores : Accords allowed .violations s.run.journal (Clear s.run.config) explore
      fun reason => Closed s.run.config reason)
    (listeners : ∀ l ∈ s.listeners, allowed l) (reporter : ∀ l ∈ s.reporter, allowed l)
    (unviolated : s.run.violations = []) (clear : s.run.atViolation = false)
    (ran : conduct strategy explore s = .ok o t) : s.AnnouncesPromptly t o := by
  have conducted : Accords allowed .violations s.run.journal (Clear s.run.config) (conduct strategy explore)
      fun o w r => Closed s.run.config o.reason w r ∧ o.errors = r.violations.length := by
    apply Accords.bind (accords_launch bookish_clear.aloof strategy)
    intro _
    apply explores.bind
    intro reason
    apply (accords_conclude bookish_closed.aloof reason).imp
    rintro o w r ⟨closed, rfl, errors⟩
    exact ⟨closed, errors⟩
  have start : Clear s.run.config {} s.run :=
    ⟨⟨⟨rfl, by simp [unviolated], by simp [unviolated]⟩, rfl, fun _ => unviolated⟩, clear⟩
  obtain ⟨w, follows, closed, errors⟩ :=
    (Ensures.of_ok conducted ⟨listeners, reporter, {}, .of_eq rfl, start⟩ ran).run
  have reads := follows.reads_entriesFrom
  obtain ⟨count, numbers, owed⟩ := Monitor.reads_violations reads
  have length : o.errors =
      ((t.run.journal.entriesFrom s.run.journal.length).filterMap Entry.recorded?).length := by
    rw [errors, ← closed.count, count]
    simp [Monitor.violations]
  have recorded : (t.run.journal.entriesFrom s.run.journal.length).filterMap Entry.recorded? =
      List.range' 1 o.errors := by
    rw [length]
    simpa [Monitor.violations] using numbers
  refine ⟨errors, errors ▸ closed.ids, recorded, ?_, ?_, ?_⟩
  · rw [← recorded]
    simpa [Monitor.violations, owed, closed.paid, ViolationWatch.owed] using owed.symm
  · intro before id name depth after split
    rw [split] at reads
    obtain ⟨ψ, ψ', -, here, rest⟩ := Monitor.reads_split reads
    simp only [Monitor.violations] at here
    split_ifs at here with next
    obtain rfl := Option.some.inj here
    rw [next.2]
    exact Monitor.reads_pending rfl closed.paid rest
  · intro single
    rw [closed.single single, errors]
    simp

/-- A fresh search that replays a path, simulates or walks at random announces what it records, over any engine
    and with any properties, if it comes to its end. -/
theorem linear_strategies_announce_promptly
    (restrained : Listener.Restrained (fun _ : Run E P => True) allowed)
    (listeners : ∀ l ∈ s.listeners, allowed l) (reporter : ∀ l ∈ s.reporter, allowed l)
    (unviolated : s.run.violations = []) (clear : s.run.atViolation = false) (budget : Nat) :
    (∀ o t, Replay.run budget s = .ok o t → s.AnnouncesPromptly t o) ∧
      (∀ o t, Simulation.run budget s = .ok o t → s.AnnouncesPromptly t o) ∧
      ∀ pathLimit o t, RandomRestart.run pathLimit budget s = .ok o t → s.AnnouncesPromptly t o := by
  refine ⟨fun o t => ?_, fun o t => ?_, fun pathLimit o t => ?_⟩
  · exact .of_conduct (Replay.accords_explore restrained budget) listeners reporter unviolated clear
  · exact .of_conduct (Simulation.accords_explore restrained budget) listeners reporter unviolated clear
  · exact .of_conduct (RandomRestart.accords_explore restrained pathLimit budget) listeners reporter unviolated
      clear

/-- Every step from the initial state leads back to it first, where it is forbidden to be.  The replay leaves it
    for another state, and each of three walks ends there. -/
theorem tangle_announced_promptly : ∃ e s, GraphEngine.ofGraph .tangle = .ok e ∧
    Search.ofEngine e { continueOnViolation := true } = .ok s ∧
    let watching : Search GraphEngine Subject (RuleListener Subject) :=
      (s.addListener inquirer).addProperty (.forbidden { states := [0] })
    (∃ o t, Replay.run 30 watching = .ok o t ∧ (o.reason = .endStateReached ∧ o.errors = 1) ∧
      watching.AnnouncesPromptly t o) ∧
    (∃ o t, Simulation.run 30 watching = .ok o t ∧ (o.reason = .propertyViolated ∧ o.errors = 1) ∧
      watching.AnnouncesPromptly t o) ∧
    ∃ o t, RandomRestart.run 3 30 watching = .ok o t ∧ (o.reason = .pathLimitReached ∧ o.errors = 3) ∧
      watching.AnnouncesPromptly t o := by
  refine ⟨_, .fresh _ { continueOnViolation := true }, rfl, rfl, ?_⟩
  intro watching
  have listeners : ∀ l ∈ watching.listeners, l.isMild := by
    have eq : watching.listeners = [inquirer] := rfl
    simpa [eq] using inquirer_isMild
  have reporter : ∀ l ∈ watching.reporter, l.isMild := by
    have eq : watching.reporter = none := rfl
    simp [eq]
  obtain ⟨replayed, simulated, walked⟩ := linear_strategies_announce_promptly (RuleListener.restrained _)
    listeners reporter rfl rfl 30
  have replay : ∃ o t, Replay.run 30 watching = .ok o t ∧ o.reason = .endStateReached ∧ o.errors = 1 :=
    exists_ok_of_check (by decide +kernel)
  have simulation : ∃ o t, Simulation.run 30 watching = .ok o t ∧ o.reason = .propertyViolated ∧ o.errors = 1 :=
    exists_ok_of_check (by decide +kernel)
  have walks : ∃ o t, RandomRestart.run 3 30 watching = .ok o t ∧ o.reason = .pathLimitReached ∧ o.errors = 3 :=
    exists_ok_of_check (by decide +kernel)
  refine ⟨?_, ?_, ?_⟩
  · obtain ⟨o, t, done, ending⟩ := replay
    exact ⟨o, t, done, ending, replayed o t done⟩
  · obtain ⟨o, t, done, ending⟩ := simulation
    exact ⟨o, t, done, ending, simulated o t done⟩
  · obtain ⟨o, t, done, ending⟩ := walks
    exact ⟨o, t, done, ending, walked 3 o t done⟩

end Statewalk
