import Statewalk.Proofs.Disciplines
import Statewalk.Proofs.Minutes
import Statewalk.Proofs.Telling

/-! # Broadcasts

Every event that a run announces goes the round: all listeners are told of it in order, and then the
reporter, with nothing in between.  A round is broken off only where one of them fails, and then the run
ends there.  The same trail shows how sparing a run is with its engine: since its last iteration began
the engine was told at most once to step forward, and at most once to go back.
-/

namespace Statewalk

namespace Occurrence

/-- An announcement, and the calls of all with a smaller number; the latest first. -/
def round (event : Event) : Nat → List Occurrence
  | 0 => [.announce event]
  | number + 1 => .call number event (.ok ()) :: round event number

/-- The calls that an event gives rise to. -/
def calls (count : Nat) (event : Event) : List (Nat × Event) :=
  (List.range count).map (·, event)

/-- Neither an announcement nor a call. -/
def isQuiet : Occurrence → Bool
  | .announce _ => false
  | .call .. => false
  | _ => true

@[simp] theorem announced_round (event : Event) (n : Nat) : announced (round event n) = [event] := by
  induction n with
  | zero => rfl
  | succ n ih => simp [round, ih, event?]

@[simp] theorem called_round (event : Event) (n : Nat) : called (round event n) = calls n event := by
  induction n with
  | zero => rfl
  | succ n ih => simp [round, ih, call?, calls, List.range_succ]

theorem failure?_of_mem_round {event : Event} {n : Nat} {o : Occurrence} (member : o ∈ round event n) :
    o.failure? = none := by
  induction n with
  | zero =>
    rw [round, List.mem_singleton] at member
    exact member ▸ rfl
  | succ n ih =>
    cases List.mem_cons.1 member with
    | inl last => exact last ▸ rfl
    | inr earlier => exact ih earlier

/-- Every announcement goes the round of all `n`, with nothing in between. -/
inductive InRounds (n : Nat) : List Occurrence → Prop where
  | nil : InRounds n []
  | quiet {o : Occurrence} {l : List Occurrence} : o.isQuiet = true → InRounds n l → InRounds n (o :: l)
  | round (event : Event) {l : List Occurrence} : InRounds n l → InRounds n (round event n ++ l)

namespace InRounds

variable {n : Nat} {l : List Occurrence}

/-- The calls are those of the events, one event after the other. -/
theorem called_eq (h : InRounds n l) : called l = (announced l).flatMap (calls n) := by
  induction h with
  | nil => rfl
  | @quiet o l quiet _ ih =>
    have silent : o.event? = none ∧ o.call? = none := by
      cases o <;> first | exact ⟨rfl, rfl⟩ | cases quiet
    simp [ih, silent]
  | round event _ ih => simp [ih]

theorem failure?_eq_none (h : InRounds n l) : ∀ o ∈ l, o.failure? = none := by
  induction h with
  | nil => exact List.forall_mem_nil _
  | @quiet o l quiet _ ih =>
    refine List.forall_mem_cons.2 ⟨?_, ih⟩
    cases o <;> first | rfl | cases quiet
  | round event _ ih =>
    intro o member
    cases List.mem_append.1 member with
    | inl last => exact failure?_of_mem_round last
    | inr earlier => exact ih o earlier

end InRounds

/-! ## Sparing runs -/

/-- What happened since the last iteration began. -/
def sinceTurn (l : List Occurrence) : List Occurrence :=
  l.takeWhile (!·.isTurn)

theorem sinceTurn_cons {o : Occurrence} (h : o.isTurn = false) (l : List Occurrence) :
    sinceTurn (o :: l) = o :: sinceTurn l :=
  List.takeWhile_cons_of_pos (by simp [h])

/-- As many steps as are open to the iteration can be made on top of those it made, so that none is made
    twice; and none was made before the first iteration. -/
structure Sparing (p : Scope) (l : List Occurrence) : Prop where
  forward : (sinceTurn l).countP isForward + p.forward.toNat ≤ 1
  back : (sinceTurn l).countP isReturn + p.back.toNat ≤ 1
  begun : p.forward = true ∨ p.back = true → l.any isTurn = true
  moved : l.any isMove = true → l.any isTurn = true

namespace Sparing

variable {p q : Scope} {l : List Occurrence} {o : Occurrence}

theorem nil : Sparing .none [] :=
  ⟨by decide, by decide, by decide, by decide⟩

theorem narrow (h : Sparing p l) (within : q.Within p) : Sparing q l where
  forward := (Nat.add_le_add_left (Bool.toNat_le_toNat within.1) _).trans h.forward
  back := (Nat.add_le_add_left (Bool.toNat_le_toNat within.2.1) _).trans h.back
  begun some := h.begun (some.imp within.1 within.2.1)
  moved := h.moved

/-- With an iteration everything is open again. -/
theorem turn (l : List Occurrence) : Sparing .full (.turn :: l) :=
  ⟨Nat.le_refl 1, Nat.le_refl 1, fun _ => rfl, fun _ => rfl⟩

/-- A step takes away from what is open. -/
theorem cons (h : Sparing p l) (turn : o.isTurn = false)
    (forward : q.forward.toNat + o.isForward.toNat ≤ p.forward.toNat)
    (back : q.back.toNat + o.isReturn.toNat ≤ p.back.toNat) : Sparing q (o :: l) := by
  have positive (b : Bool) : 0 < b.toNat ↔ b = true := by cases b <;> simp
  have begun (some : 0 < p.forward.toNat ∨ 0 < p.back.toNat) : (o :: l).any isTurn = true := by
    simpa [turn] using h.begun (some.imp (positive _).1 (positive _).1)
  have count (b : Bool) : (if b = true then 1 else 0) = b.toNat := by cases b <;> rfl
  refine ⟨?_, ?_, ?_, ?_⟩
  · have before := h.forward
    rw [sinceTurn_cons turn, List.countP_cons, count]
    omega
  · have before := h.back
    rw [sinceTurn_cons turn, List.countP_cons, count]
    omega
  · intro some
    apply begun
    have opened := some.imp (positive _).2 (positive _).2
    omega
  · intro moved
    rw [List.any_cons, Bool.or_eq_true] at moved
    cases moved with
    | inl last =>
      apply begun
      rw [isMove, Bool.or_eq_true] at last
      have taken := last.imp (positive _).2 (positive _).2
      omega
    | inr earlier => simpa [turn] using h.moved earlier

/-- Whatever is neither the start of an iteration nor a move leaves open what was open. -/
theorem other (h : Sparing p l) (turn : o.isTurn = false) (move : o.isMove = false) : Sparing p (o :: l) := by
  obtain ⟨forward, back⟩ := Bool.or_eq_false_iff.1 move
  exact h.cons turn (by simp [forward]) (by simp [back])

end Sparing

end Occurrence

/-! ## Runs under way -/

/-- A failure that is not laid to the listener that ends with it. -/
def Failure.passesThrough : Failure → Bool
  | .fault _ => true
  | .outOfFuel => true
  | _ => false

/-- A failure that the search itself may end with. -/
def Failure.isInternal : Failure → Bool
  | .restoreFailed _ => true
  | .outOfFuel => true
  | f => f.isLapse

namespace Search

variable {E P L : Type} [Engine E] [Checkable E P] [Listener E P L]

open Occurrence

/-- The trail of a run that is under way and has announced events as `said` says. -/
def Underway (s₀ : Search E P L) (said : List Event → Prop) (p : Scope) (s : Search E P L) : Prop :=
  ∃ h, Trail Does s₀ h s ∧ s.hearers.length = s₀.hearers.length ∧
    InRounds s₀.hearers.length (happenings h) ∧ Sparing p (happenings h) ∧ said (announced (happenings h))

/-- The end was announced last, and at no other time. -/
def EndsOnce (events : List Event) : Prop :=
  ∃ earlier, events = earlier ++ [.searchFinished] ∧ Event.searchFinished ∉ earlier

/-- The one with the number fails when told of the event, and the search becomes the second one by it.
    The failure is laid to the one with the number, faults and spent budgets apart. -/
def Refuses (number : Nat) (event : Event) (f : Failure) (s t : Search E P L) : Prop :=
  ∃ l l' r cause, s.hearers[number]? = some l ∧ t.hearers[number]? = some l' ∧
    Listener.hear event (l, s.run.record (.called (Named.name l) event)) = .error cause (l', r) ∧
    f = cause.raisedBy event (Named.name l') ∧
    (cause.passesThrough = false → f = .listener event (Named.name l') cause) ∧
    t.run.engine = r.engine ∧ t.run.done = r.done

/-- The trail ends with the failure of somebody who was told of an event; all before it went the round. -/
def BrokenOff (s₀ : Search E P L) (f : Failure) (t : Search E P L)
    (h : List (Occurrence × Search E P L)) : Prop :=
  ∃ number event u before earlier, h = (.call number event (.error f), t) :: before ∧
    Trail Does s₀ before u ∧ Refuses number event f u t ∧
    happenings before = Occurrence.round event number ++ earlier ∧ InRounds s₀.hearers.length earlier

/-- The trail of a run that failed: it was broken off, or the failure is one of the search itself. -/
def Aborted (s₀ : Search E P L) (inner : Failure → Prop) (f : Failure) (t : Search E P L) : Prop :=
  ∃ h, Trail Does s₀ h t ∧ Sparing .none (happenings h) ∧
    (BrokenOff s₀ f t h ∨ InRounds s₀.hearers.length (happenings h) ∧ inner f)

variable {s₀ s t : Search E P L} {said : List Event → Prop} {inner : Failure → Prop} {p q : Scope}
  {o : Occurrence}

theorem Does.hearers_eq (h : Does o s t) (quiet : o.isQuiet = true) : t.hearers = s.hearers := by
  cases h with
  | call => cases quiet
  | _ => rfl

namespace Underway

theorem start (s : Search E P L) (h : said []) : Underway s said .none s :=
  ⟨[], .start, rfl, .nil, .nil, h⟩

theorem narrow (h : Underway s₀ said p s) (within : q.Within p) : Underway s₀ said q s := by
  obtain ⟨h, trail, hearers, rounds, sparing, events⟩ := h
  exact ⟨h, trail, hearers, rounds, sparing.narrow within, events⟩

theorem quiet (h : Underway s₀ said p s) (does : Does o s t) (quiet : o.isQuiet = true)
    (taken : ∀ l, Sparing p l → Sparing q (o :: l)) : Underway s₀ said q t := by
  obtain ⟨h, trail, hearers, rounds, sparing, events⟩ := h
  have silent : o.event? = none := by cases o <;> first | rfl | cases quiet
  refine ⟨(o, t) :: h, .next trail does, ?_, .quiet quiet rounds, taken _ sparing, ?_⟩
  · rw [does.hearers_eq quiet, hearers]
  · simpa [silent] using events

theorem chore (h : Underway s₀ said p s) (does : Does .chore s t) : Underway s₀ said p t :=
  h.quiet does rfl fun _ sparing => sparing.other rfl rfl

theorem lapse (h : Underway s₀ said p s) {f : Failure} (lapse : inner f) : Aborted s₀ inner f s := by
  obtain ⟨h, trail, -, rounds, sparing, -⟩ := h
  exact ⟨h, trail, sparing.narrow (Scope.none_within _), .inr ⟨rounds, lapse⟩⟩

end Underway

/-- An event is going the round: all with a smaller number were told of it. -/
def Calling (s₀ : Search E P L) (said : List Event → Prop) (p : Scope) (event : Event) (number : Nat)
    (s : Search E P L) : Prop :=
  ∃ h earlier, Trail Does s₀ h s ∧ s.hearers.length = s₀.hearers.length ∧
    happenings h = Occurrence.round event number ++ earlier ∧ InRounds s₀.hearers.length earlier ∧
    Sparing p (happenings h) ∧ said (announced earlier)

omit [Engine E] [Checkable E P] in
theorem refuses_of_verdict {number : Nat} {event : Event} {f : Failure} {l : L}
    (there : s.hearers[number]? = some l) (failed : (Listener.tell event l s.run).verdict = .error f) :
    Refuses number event f s (s.heard number (Listener.tell event l s.run)) := by
  obtain ⟨cause, ⟨l', r⟩, heard, rfl⟩ := Listener.exists_of_verdict failed
  have told : Listener.tell event l s.run =
      { verdict := .error (cause.raisedBy event (Named.name l')), listener := l',
        run := Listener.noteFailure event (Named.name l') r cause } := by
    simp only [Listener.tell, heard]
  refine ⟨l, l', r, cause, there, ?_, heard, rfl, ?_, ?_⟩
  · rw [getElem?_hearers_heard there, told]
  · intro laid
    cases cause <;> first | rfl | cases laid
  · rw [run_heard, told]
    cases cause <;> exact ⟨rfl, rfl⟩

/-- An announcement goes the round, or it is broken off. -/
theorem ensures_calling (event : Event) :
    Ensures (Underway s₀ said p) (announce event) (fun _ => Calling s₀ said p event s₀.hearers.length)
      (Aborted s₀ inner) := by
  have entered (s : Search E P L) (here : Underway s₀ said p s) :
      Calling s₀ said p event 0 { s with run := s.run.record (.announced (s.bulletin event)) } := by
    obtain ⟨h, trail, hearers, rounds, sparing, events⟩ := here
    exact ⟨_, happenings h, .next trail (.announce event s), hearers, rfl, rounds,
      sparing.other rfl rfl, events⟩
  have told : Ensures (Calling s₀ said p event 0) (broadcast event)
      (fun _ t => Calling s₀ said p event t.hearers.length t) (Aborted s₀ inner) := by
    apply ensures_broadcast_of_calls
    rintro number s l ⟨h, earlier, trail, hearers, happened, rounds, sparing, events⟩ there
    have does : Does _ s _ := .call event there
    constructor
    · intro passed
      rw [passed] at does
      refine ⟨_, earlier, .next trail does, ?_, ?_, rounds, sparing.other rfl rfl, events⟩
      · rw [length_hearers_heard there, hearers]
      · rw [happenings_cons, happened, Occurrence.round, List.cons_append]
    · intro f failed
      rw [failed] at does
      refine ⟨_, .next trail does, (sparing.narrow (Scope.none_within p)).other rfl rfl, .inl ?_⟩
      exact ⟨number, event, s, h, earlier, rfl, trail, refuses_of_verdict there failed, happened, rounds⟩
  apply ensures_announce_of_broadcast entered
  apply told.imp
  rintro _ t ⟨h, earlier, trail, hearers, rest⟩
  rw [hearers] at rest
  exact ⟨h, earlier, trail, hearers, rest⟩

theorem ensures_underway_announce {said' : List Event → Prop} {event : Event}
    (adds : ∀ events, said events → said' (events ++ [event])) :
    Ensures (Underway s₀ said p) (announce event) (fun _ => Underway s₀ said' p) (Aborted s₀ inner) := by
  apply (ensures_calling event).imp
  rintro _ t ⟨h, earlier, trail, hearers, happened, rounds, sparing, events⟩
  refine ⟨h, trail, hearers, happened ▸ rounds.round event, sparing, ?_⟩
  simpa [happened] using adds _ events

/-- Every strategy leaves such trails, whoever is told of its events. -/
theorem discipline_underway (s₀ : Search E P L) : Discipline
    (Underway s₀ (Event.searchFinished ∉ ·)) (Underway s₀ EndsOnce .none) (Aborted s₀ (·.isInternal = true)) where
  narrow _ _ _ h within := h.narrow within
  turn _ h goesOn := h.quiet (.turn goesOn) rfl fun l _ => .turn l
  calm _ _ h _ := by
    obtain ⟨h, trail, hearers, rounds, sparing, unfinished⟩ := h
    exact ⟨h, trail, hearers, rounds, ⟨sparing.forward, sparing.back, sparing.begun, sparing.moved⟩, unfinished⟩
  chore _ _ _ h chore := h.chore (.chore chore)
  rechoose _ _ s h := h.quiet (.rechoose s) rfl fun _ sparing => sparing.other rfl rfl
  forward b := ensures_forward_of (Underway s₀ (Event.searchFinished ∉ ·) ⟨false, b, false⟩)
    (fun s h => h.chore (.clear s))
    (fun s h => h.quiet (.forward s) rfl fun _ sparing => sparing.cons rfl (Nat.le_refl 1) (Nat.le_refl _))
    fun s h => h.quiet (.check s) rfl fun _ sparing => sparing.other rfl rfl
  backtrack f := ensures_backtrack_of
    (fun s h => h.chore (.chore (.of_eq rfl rfl rfl rfl rfl rfl rfl rfl)))
    fun s h => h.quiet (.backtrack s) rfl fun _ sparing => sparing.cons rfl (Nat.le_refl _) (Nat.le_refl 1)
  restore f snapshot strategy := ensures_restore_of (Underway s₀ (Event.searchFinished ∉ ·) ⟨f, false, true⟩)
    (fun s h => h.chore (.clear s))
    (fun s h => h.quiet (.restore snapshot s) rfl fun _ sparing =>
      sparing.cons rfl (Nat.le_refl _) (Nat.le_refl 1))
    (fun s _ h => h.chore (.chore (.of_eq rfl rfl rfl rfl rfl rfl rfl rfl))) fun _ h => h.lapse rfl
  check f b s h := h.quiet (.check s) rfl fun _ sparing => sparing.cons rfl (Nat.le_refl _) (Nat.le_refl _)
  announce p event other := ensures_underway_announce fun events unfinished => by
    simp [unfinished, Ne.symm other]
  finish := ensures_underway_announce fun events unfinished => ⟨events, rfl, unfinished⟩
  close _ _ h chore := h.chore (.chore chore)
  lapse _ _ f h lapse := h.lapse (by cases f <;> first | rfl | cases lapse)

end Search

namespace Strategy

variable {H E P L : Type} [Engine E] [Checkable E P] [Listener E P L] [Heuristic H E P]

open Occurrence Search

/-- The trail of a run of any strategy. -/
theorem ensures_trail (a : Strategy H E) (budget : Nat) (s : Search E P L) :
    Ensures (· = s) (a.run budget) (fun _ t => s.Underway EndsOnce .none t ∧ t.run.done = true)
      (s.Aborted (·.isInternal = true)) :=
  (a.ensures_run (discipline_underway s) (fun _ h => h.lapse rfl) budget).of_eq (.start s (by simp))

end Strategy

section Rounds

variable {H E P L : Type} [Engine E] [Checkable E P] [Listener E P L] [Heuristic H E P]

open Occurrence Search

/-- Each event of a run goes the round of all listeners in order, and then of the reporter, before
    anything else happens.  If one of them fails, this is the last thing that happens, and the run fails
    with it.  If all of them are lawful, this is also what the journal says. -/
theorem broadcasts_go_the_round (a : Strategy H E) (budget : Nat) (s : Search E P L) :
    Ensures (· = s) (a.run budget)
      (fun _ t => ∃ h, Trail Does s h t ∧ (Listener.Lawful E P L → Minuted s t (happenings h)) ∧
        InRounds s.hearers.length (happenings h) ∧ (∀ o ∈ happenings h, o.failure? = none) ∧
        called (happenings h) = (announced (happenings h)).flatMap (calls s.hearers.length))
      fun f t => ∃ h, Trail Does s h t ∧ (Listener.Lawful E P L → Minuted s t (happenings h)) ∧
        ((∃ number event u before earlier, h = (.call number event (.error f), t) :: before ∧
            Trail Does s before u ∧ Refuses number event f u t ∧
            happenings before = Occurrence.round event number ++ earlier ∧
            InRounds s.hearers.length earlier ∧ (∀ o ∈ happenings before, o.failure? = none) ∧
            called (happenings h) =
              (announced earlier).flatMap (calls s.hearers.length) ++ calls (number + 1) event) ∨
          InRounds s.hearers.length (happenings h) ∧ (∀ o ∈ happenings h, o.failure? = none) ∧
            called (happenings h) = (announced (happenings h)).flatMap (calls s.hearers.length) ∧
            f.isInternal = true) := by
  apply ((a.ensures_trail budget s).imp ?_).imp_fail ?_
  · rintro _ t ⟨⟨h, trail, -, rounds, -⟩, -⟩
    exact ⟨h, trail, fun lawful => minuted_of_trail lawful trail, rounds, rounds.failure?_eq_none,
      rounds.called_eq⟩
  · rintro f t ⟨h, trail, -, ended⟩
    refine ⟨h, trail, fun lawful => minuted_of_trail lawful trail, ?_⟩
    cases ended with
    | inr inner => exact .inr ⟨inner.1, inner.1.failure?_eq_none, inner.1.called_eq, inner.2⟩
    | inl broken =>
      obtain ⟨number, event, u, before, earlier, rfl, early, refuses, happened, rounds⟩ := broken
      refine .inl ⟨number, event, u, before, earlier, rfl, early, refuses, happened, rounds, ?_, ?_⟩
      · intro o member
        rw [happened] at member
        cases List.mem_append.1 member with
        | inl here => exact failure?_of_mem_round here
        | inr before => exact rounds.failure?_eq_none o before
      · rw [happenings_cons, happened]
        simp [call?, calls, rounds.called_eq, List.range_succ]

end Rounds

end Statewalk
