import Statewalk.Proofs.RecordKeeping

/-! # Monitors

A monitor reads what a search enters in its journal, one entry after the other, and refuses what must not
come next.  `Search.Accords` says that an operation makes no entry that a monitor refuses, in whatever way it
ends, and in which phase the monitor is when it succeeds.  What restrained listeners leave behind passes by.
-/

namespace Statewalk

/-- The move that the entry tells. -/
def Entry.move? : Entry → Option Move
  | .moved move _ _ => some move
  | _ => none

/-- A reader of journals.  It may refuse an entry, but none that listeners leave behind, that a search makes
    for itself or that tells of a crossing. -/
structure Monitor (Φ : Type) where
  start : Φ
  read : Φ → Entry → Option Φ
  aside : ∀ φ e, e.isAside = true → read φ e = some φ
  chore : ∀ φ e, e.isChore = true → read φ e = some φ
  crossed : ∀ φ source transition isNew, read φ (.crossed source transition isNew) = some φ

namespace Monitor

variable {Φ : Type} {m : Monitor Φ} {φ φ' φ'' : Φ} {e : Entry} {es es' : List Entry} {j j' j'' : Journal}

/-- The phase after some entries, if none of them is refused. -/
def reads (m : Monitor Φ) (φ : Φ) : List Entry → Option Φ
  | [] => some φ
  | e :: es => (m.read φ e).bind fun φ => m.reads φ es

theorem reads_append : m.reads φ (es ++ es') = (m.reads φ es).bind fun φ => m.reads φ es' := by
  induction es generalizing φ with
  | nil => simp [reads]
  | cons e es ih =>
    cases first : m.read φ e with
    | none => simp [reads, first]
    | some φ' => simp [reads, first, ih]

/-- Entries that are accepted one by one. -/
theorem reads_cons (h : m.reads φ (e :: es) = some φ') : ∃ ψ, m.read φ e = some ψ ∧ m.reads ψ es = some φ' := by
  simpa [reads, Option.bind_eq_some_iff] using h

/-- Accepted entries can be taken up anywhere. -/
theorem reads_split (h : m.reads φ (es ++ e :: es') = some φ') :
    ∃ ψ ψ', m.reads φ es = some ψ ∧ m.read ψ e = some ψ' ∧ m.reads ψ' es' = some φ' := by
  rw [reads_append, Option.bind_eq_some_iff] at h
  obtain ⟨ψ, before, after⟩ := h
  obtain ⟨ψ', here, rest⟩ := reads_cons after
  exact ⟨ψ, ψ', before, here, rest⟩

theorem reads_of_passing (passing : ∀ e ∈ es, m.read φ e = some φ) : m.reads φ es = some φ := by
  induction es with
  | nil => rfl
  | cons e es ih =>
    obtain ⟨first, others⟩ := List.forall_mem_cons.1 passing
    simp [reads, first, ih others]

/-- What was entered since then leads the monitor from one phase to the other. -/
def Follows (m : Monitor Φ) (φ : Φ) (j : Journal) (φ' : Φ) (j' : Journal) : Prop :=
  ∃ news, j'.entries = j.entries ++ news ∧ m.reads φ news = some φ'

namespace Follows

theorem of_eq (h : j' = j) : m.Follows φ j φ j' :=
  ⟨[], by simp [h], rfl⟩

theorem trans (h : m.Follows φ j φ' j') (h' : m.Follows φ' j' φ'' j'') : m.Follows φ j φ'' j'' := by
  obtain ⟨news, entries, reads⟩ := h
  obtain ⟨news', entries', reads'⟩ := h'
  refine ⟨news ++ news', by simp [entries', entries], ?_⟩
  rw [reads_append, reads, Option.bind_some, reads']

theorem record (h : m.read φ e = some φ') : m.Follows φ j φ' (j.record e) :=
  ⟨[e], by simp, by simp [Monitor.reads, h]⟩

theorem of_passing {notes : List Entry} (recent : j'.recent = notes ++ j.recent)
    (passing : ∀ e ∈ notes, m.read φ e = some φ) : m.Follows φ j φ j' := by
  refine ⟨notes.reverse, by simp [Journal.entries, recent], reads_of_passing ?_⟩
  intro e member
  exact passing e (List.mem_reverse.1 member)

/-- All that was entered since then was accepted. -/
theorem reads_entriesFrom (h : m.Follows φ j φ' j') : m.reads φ (j'.entriesFrom j.length) = some φ' := by
  obtain ⟨news, entries, reads⟩ := h
  have from_eq : j'.entriesFrom j.length = news := by
    rw [Journal.entriesFrom_eq_drop, entries, ← Journal.length_entries, List.drop_left]
  rw [from_eq, reads]

variable {E P : Type} [Engine E] {r r' : Run E P}

theorem attended (h : r.Attended r') (φ : Φ) : m.Follows φ r.journal φ r'.journal := by
  obtain ⟨asides, recent, aside⟩ := h.journal
  exact of_passing recent fun e member => m.aside φ e (aside e member)

omit [Engine E] in
theorem chore (h : r.Chore r') (φ : Φ) : m.Follows φ r.journal φ r'.journal := by
  obtain ⟨notes, recent, chores⟩ := h.journal
  exact of_passing recent fun e member => m.chore φ e (chores e member)

/-- A step forward is entered, and the crossing after it passes by. -/
theorem stepForward (h : m.read φ (.moved .forward r.depth (Engine.forward r.engine).1) = some φ') :
    m.Follows φ r.journal φ' r.stepForward.2.journal := by
  rw [Run.stepForward_eq]
  unfold Run.stepJournal
  split
  · rename_i entry _ crossing
    have passing : m.read φ' entry = some φ' := by
      unfold Run.crossing? at crossing
      split at crossing
      · obtain ⟨_, -, rfl⟩ := Option.map_eq_some_iff.1 crossing
        exact m.crossed ..
      · cases crossing
    exact (record h).trans (record passing)
  · exact record h

end Follows

end Monitor

/-! ## Runs -/

namespace Run

variable {E P : Type} {r r' r'' : Run E P}

/-- What restrained listeners cannot change is as before, and a search that is done stays so. -/
structure Persists (r r' : Run E P) : Prop where
  config : r'.config = r.config
  depth : r'.depth = r.depth
  atViolation : r'.atViolation = r.atViolation
  violations : r'.violations = r.violations
  done : r.done = true → r'.done = true

theorem Attended.persists [Engine E] (h : r.Attended r') : r.Persists r' :=
  ⟨h.config, h.depth, h.atViolation, h.violations, h.done⟩

theorem persists_record (e : Entry) (r : Run E P) : r.Persists (r.record e) :=
  ⟨rfl, rfl, rfl, rfl, id⟩

theorem persists_endsAtViolation (r : Run E P) : r.Persists r.endsAtViolation.2 := by
  unfold endsAtViolation
  split_ifs <;> exact ⟨rfl, rfl, rfl, rfl, id⟩

end Run

/-! ## Operations -/

namespace Search

variable {E P L α β Φ : Type} {allowed : L → Prop} {m : Monitor Φ} {j : Journal} {J : Φ → Run E P → Prop}
  {K : α → Φ → Run E P → Prop} {x : SearchM E P L α}

/-- The predicate tells nothing that restrained listeners could change. -/
def Aloof (J : Φ → Run E P → Prop) : Prop :=
  ∀ φ r r', J φ r → r.Persists r' → J φ r'

/-- The operation makes no entry that the monitor refuses.  It starts in a phase with `J`, and if it
    succeeds it ends in one with `K`. -/
def Accords (allowed : L → Prop) (m : Monitor Φ) (j : Journal) (J : Φ → Run E P → Prop) (x : SearchM E P L α)
    (K : α → Φ → Run E P → Prop) : Prop :=
  Ensures (Heeded allowed fun r => ∃ φ, m.Follows m.start j φ r.journal ∧ J φ r) x
    (fun a => Heeded allowed fun r => ∃ φ, m.Follows m.start j φ r.journal ∧ K a φ r)
    fun _ => Heeded allowed fun r => ∃ φ, m.Follows m.start j φ r.journal

namespace Accords

theorem pure {a : α} (h : ∀ φ r, J φ r → K a φ r) : Accords (L := L) allowed m j J (Pure.pure a) K := by
  apply Ensures.pure
  intro s hs
  apply hs.imp
  rintro r ⟨φ, follows, hr⟩
  exact ⟨φ, follows, h φ r hr⟩

theorem bind {f : α → SearchM E P L β} {M : β → Φ → Run E P → Prop} (hx : Accords allowed m j J x K)
    (hf : ∀ a, Accords allowed m j (K a) (f a) M) : Accords allowed m j J (x >>= f) M :=
  Ensures.bind hx hf

theorem of_imp {I : Φ → Run E P → Prop} (hx : Accords allowed m j J x K) (h : ∀ φ r, I φ r → J φ r) :
    Accords allowed m j I x K := by
  apply Ensures.of_imp hx
  intro s hs
  apply hs.imp
  rintro r ⟨φ, follows, hr⟩
  exact ⟨φ, follows, h φ r hr⟩

theorem imp {M : α → Φ → Run E P → Prop} (hx : Accords allowed m j J x K) (h : ∀ a φ r, K a φ r → M a φ r) :
    Accords allowed m j J x M := by
  apply Ensures.imp hx
  intro a s hs
  apply hs.imp
  rintro r ⟨φ, follows, hr⟩
  exact ⟨φ, follows, h a φ r hr⟩

theorem throw {f : Failure} : Accords allowed m j J (MonadExcept.throw f : SearchM E P L α) K := by
  apply Ensures.throw
  intro s hs
  apply hs.imp
  rintro r ⟨φ, follows, -⟩
  exact ⟨φ, follows⟩

/-- What is known whatever the run is can be used at once. -/
theorem of_known {known : Prop} (h : known → Accords allowed m j J x K) :
    Accords allowed m j (fun φ r => known ∧ J φ r) x K := by
  intro s hs
  obtain ⟨φ, follows, fact, hr⟩ := hs.run
  exact h fact s ⟨hs.listeners, hs.reporter, φ, follows, hr⟩

theorem update {f : Run E P → α × Run E P} (h : ∀ φ r, J φ r →
    ∃ φ', m.Follows φ r.journal φ' (f r).2.journal ∧ K (f r).1 φ' (f r).2) :
    Accords (L := L) allowed m j J (Search.update f) K := by
  apply ensures_update
  rintro r ⟨φ, follows, hr⟩
  obtain ⟨φ', further, after⟩ := h φ r hr
  exact ⟨φ', follows.trans further, after⟩

theorem change {f : Run E P → Run E P} {M : Φ → Run E P → Prop} (h : ∀ φ r, J φ r →
    ∃ φ', m.Follows φ r.journal φ' (f r).journal ∧ M φ' (f r)) :
    Accords (L := L) allowed m j J (Search.change f) fun _ => M := by
  apply ensures_change
  rintro r ⟨φ, follows, hr⟩
  obtain ⟨φ', further, after⟩ := h φ r hr
  exact ⟨φ', follows.trans further, after⟩

/-- A change that the monitor does not see. -/
theorem change_silent {f : Run E P → Run E P} {M : Φ → Run E P → Prop} (silent : ∀ r, (f r).journal = r.journal)
    (h : ∀ φ r, J φ r → M φ (f r)) : Accords (L := L) allowed m j J (Search.change f) fun _ => M :=
  change fun φ r hr => ⟨φ, .of_eq (silent r), h φ r hr⟩

theorem look {f : Run E P → α} :
    Accords (L := L) allowed m j J (Search.look f) fun a φ r => J φ r ∧ f r = a := by
  apply ensures_look.imp
  intro a s hs
  apply hs.imp
  rintro r ⟨⟨φ, follows, hr⟩, seen⟩
  exact ⟨φ, follows, hr, seen⟩

/-- A look at the run whose result does not matter. -/
theorem glance {f : Run E P → α} : Accords (L := L) allowed m j J (Search.look f) fun _ => J :=
  look.imp fun _ _ _ h => h.1

theorem onRun {x : RunM E P α} (h : ∀ φ r, J φ r → match x r with
    | .ok a r' => ∃ φ', m.Follows φ r.journal φ' r'.journal ∧ K a φ' r'
    | .error _ r' => r'.journal = r.journal) : Accords (L := L) allowed m j J (Search.onRun x) K := by
  apply ensures_onRun (F := fun _ r => ∃ φ, m.Follows m.start j φ r.journal)
  rintro r ⟨φ, follows, hr⟩
  have after := h φ r hr
  cases ran : x r with
  | ok a r' =>
    rw [ran] at after
    obtain ⟨φ', further, hr'⟩ := after
    exact ⟨φ', follows.trans further, hr'⟩
  | error f r' =>
    rw [ran] at after
    exact ⟨φ, follows.trans (.of_eq after)⟩

theorem loop {ifDone : β} {iterate : α → SearchM E P L (Turn α β)} {M : β → Φ → Run E P → Prop}
    (inv : α → Φ → Run E P → Prop) (finish : ∀ a φ r, inv a φ r → r.done = true → M ifDone φ r)
    (step : ∀ a, Accords allowed m j (fun φ r => inv a φ r ∧ r.done = false) (iterate a)
      fun turn φ r => Ensures.onTurn (fun a => inv a φ) (fun b => M b φ) turn r)
    (budget : Nat) (a : α) :
    Accords allowed m j (inv a) (Statewalk.loop (·.run.done) ifDone iterate budget a) M := by
  refine Ensures.loop (fun a => Heeded allowed fun r => ∃ φ, m.Follows m.start j φ r.journal ∧ inv a φ r)
    ?_ ?_ ?_ budget a
  · intro a s hs done
    obtain ⟨φ, follows, hr⟩ := hs.run
    exact ⟨hs.listeners, hs.reporter, φ, follows, finish a φ s.run hr done⟩
  · intro a s hs
    obtain ⟨φ, follows, -⟩ := hs.run
    exact ⟨hs.listeners, hs.reporter, φ, follows⟩
  · intro a s hs
    obtain ⟨φ, follows, hr⟩ := hs.1.run
    have turned := step a s ⟨hs.1.listeners, hs.1.reporter, φ, follows, hr, hs.2⟩
    cases result : iterate a s with
    | error f t =>
      rw [result] at turned
      exact turned
    | ok turn t =>
      rw [result] at turned
      cases turn <;> exact turned

end Accords

section Idle

variable (aloof : Aloof J)

include aloof

/-- What the monitor passes by keeps an aloof predicate. -/
theorem accords_idle {f : Run E P → α × Run E P} (persists : ∀ r : Run E P, r.Persists (f r).2)
    (follows : ∀ φ r, m.Follows φ r.journal φ (f r).2.journal) :
    Accords (L := L) allowed m j J (update f) fun _ => J :=
  .update fun φ r hr => ⟨φ, follows φ r, aloof φ r _ hr (persists r)⟩

theorem accords_adjust {f : Run E P → Run E P} (persists : ∀ r : Run E P, r.Persists (f r))
    (silent : ∀ r, (f r).journal = r.journal) : Accords (L := L) allowed m j J (change f) fun _ => J :=
  .change fun φ r hr => ⟨φ, .of_eq (silent r), aloof φ r _ hr (persists r)⟩

theorem accords_launch (strategy : String) : Accords (L := L) allowed m j J (launch strategy) fun _ => J := by
  have note (e : Entry) (chore : e.isChore = true) :
      Accords (L := L) allowed m j J (change (Run.record e)) fun _ => J :=
    .change fun φ r hr => ⟨φ, .record (m.chore φ e chore), aloof φ r _ hr (r.persists_record e)⟩
  have started : Accords (L := L) allowed m j J (do
      change (Run.record (.launched strategy))
      change fun r => { r with matching := true }) fun _ => J :=
    (note _ rfl).bind fun _ => accords_adjust aloof (fun _ => ⟨rfl, rfl, rfl, rfl, id⟩) fun _ => rfl
  apply Accords.bind .glance
  intro unguarded
  split
  · exact (note _ rfl).bind fun _ => started
  · exact started

theorem accords_conclude (reason : StopReason) :
    Accords (L := L) allowed m j J (conclude reason) fun o φ r =>
      J φ r ∧ o.reason = reason ∧ o.errors = r.violations.length := by
  have stopped : Accords (L := L) allowed m j J (change fun r => { r with done := true }) fun _ => J :=
    accords_adjust aloof (fun _ => ⟨rfl, rfl, rfl, rfl, fun _ => rfl⟩) fun _ => rfl
  apply stopped.bind
  intro _
  apply Accords.look.imp
  rintro o φ r ⟨hr, rfl⟩
  exact ⟨hr, rfl, rfl⟩

variable [Engine E]

theorem accords_isNew : Accords (L := L) allowed m j J isNew fun _ => J := by
  apply Accords.onRun
  intro φ r hr
  obtain ⟨answer, depths, query, asked, -⟩ | ⟨f, failed, -⟩ := Run.isNew_cases r
  · rw [asked]
    exact ⟨φ, .of_eq rfl, aloof φ r _ hr ⟨rfl, rfl, rfl, rfl, id⟩⟩
  · rw [failed]

theorem accords_hasMemory : Accords (L := L) allowed m j J (update Run.hasMemory) fun _ => J :=
  accords_idle aloof (fun r => (Run.Attended.hasMemory r).persists) fun φ r => .attended (.hasMemory r) φ

end Idle

section Announcements

variable [Engine E] [Listener E P L] (restrained : Listener.Restrained (fun _ : Run E P => True) allowed)

include restrained

/-- An announcement is read, and listeners that are told of it leave nothing that counts. -/
theorem accords_announce {M : Φ → Run E P → Prop} (aloof : Aloof M) {event : Event}
    (h : ∀ φ r n, J φ r → ∃ φ', m.read φ (.announced (r.bulletin n event)) = some φ' ∧ M φ' r) :
    Accords allowed m j J (announce event) fun _ => M := by
  let after (r : Run E P) : Prop := ∃ φ, m.Follows m.start j φ r.journal ∧ M φ r
  apply ensures_announce restrained (K := after)
  · rintro r n ⟨φ, follows, hr⟩
    obtain ⟨φ', reads, hr'⟩ := h φ r n hr
    exact ⟨φ', follows.trans (.record reads), aloof φ' r _ hr' (r.persists_record _)⟩
  · exact fun _ _ => trivial
  · rintro r r' ⟨φ, follows, hr⟩ attended
    exact ⟨φ, follows.trans (.attended attended φ), aloof φ r r' hr attended.persists⟩
  · rintro f r ⟨φ, follows, -⟩ -
    exact ⟨φ, follows⟩

theorem accords_pollProbe {M : Φ → Run E P → Prop} (aloof : Aloof J) (aloof' : Aloof M)
    (h : ∀ φ r n, J φ r → ∃ φ', m.read φ (.announced (r.bulletin n .searchProbed)) = some φ' ∧ M φ' r)
    (le : ∀ φ r, J φ r → M φ r) : Accords (L := L) allowed m j J pollProbe fun _ => M := by
  apply Accords.bind (accords_idle aloof (fun _ => ⟨rfl, rfl, rfl, rfl, id⟩) fun _ _ => .of_eq rfl)
  intro asked
  split
  · exact accords_announce restrained aloof' h
  · exact .pure le

/-- After a violation was announced the properties may be made to forget, which the monitor does not see. -/
theorem accords_announceViolation [Property P] {M : Φ → Run E P → Prop} (aloof : Aloof M)
    (h : ∀ φ r n, J φ r → ∃ φ', m.read φ (.announced (r.bulletin n .propertyViolated)) = some φ' ∧ M φ' r) :
    Accords (L := L) allowed m j J announceViolation fun _ => M := by
  apply Accords.bind (accords_announce restrained aloof h)
  intro _
  apply Accords.bind .glance
  intro goesOn
  split
  · exact accords_adjust aloof (fun _ => ⟨rfl, rfl, rfl, rfl, id⟩) fun _ => rfl
  · exact .pure fun _ _ h => h

end Announcements

end Search

end Statewalk
