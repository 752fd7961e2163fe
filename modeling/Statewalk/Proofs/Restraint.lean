import Mathlib.Logic.Relation
import Statewalk.Proofs.Assurance
import Statewalk.Proofs.QuietRuns
import Statewalk.Session.Rules
import Statewalk.Session.Subject

/-! # Restrained listeners

A listener is restrained when all it does to a run is to ask, to make requests, to mark states as
ignored and to leave notes.  `Run.Call` is one such thing, and `Run.Attended` is the frame that any
number of them stay in: what a run may look like after restrained listeners were told of an event.  What
no such frame tells, such as what becomes of the recorded depths, is `Run.Robust` if each touch keeps it.
-/

namespace Statewalk

/-- A remark or a line of a listener, or something about its timer. -/
def Entry.isNote : Entry → Bool
  | .remarked _ => true
  | .noticed _ => true
  | .wrote .. => true
  | .timerStarted _ => true
  | .timerStopped => true
  | _ => false

/-- An entry that comes of telling restrained listeners of an event. -/
def Entry.isAside : Entry → Bool
  | .called .. => true
  | .listenerFailed .. => true
  | .terminated => true
  | .memoryLow .. => true
  | .reclaimed _ => true
  | e => e.isNote

/-- The second engine is the first one after marks were set and taken away. -/
def Engine.Marked {E : Type} [Engine E] : E → E → Prop :=
  Relation.ReflTransGen fun e e' => ∃ mark, e' = Engine.ignore mark e

namespace Run

variable {E P : Type} [Engine E]

/-- One thing that a restrained listener with tallies of its own does to a run. -/
inductive Call (own : Nat → Prop) : Run E P → Run E P → Prop where
  | ask {r r' : Run E P} {answer : Bool} : isNew r = .ok answer r' → Call own r r'
  | gauge (r : Run E P) : Call own r r.hasMemory.2
  | tally {i : Nat} (f : Tally → Tally) (r : Run E P) : own i → Call own r (r.modifyTally i f)
  | note {e : Entry} (r : Run E P) : e.isNote = true → Call own r (r.record e)
  | requestBacktrack (r : Run E P) : Call own r r.requestBacktrack
  | requestProbe (r : Run E P) : Call own r r.requestProbe
  | terminate (r : Run E P) : Call own r r.terminate
  | ignore (mark : Bool) (r : Run E P) : Call own r (r.ignore mark)

theorem recordDepth_ne_aboveRoot (r : Run E P) : r.recordDepth ≠ .error (.fault .aboveRoot) := by
  unfold recordDepth
  cases set : r.depths.set (Engine.stateId r.engine) r.depth with
  | ok _ => simp [Except.mapError]
  | error f => rcases DepthTable.fault_of_set set with rfl | rfl <;> simp [Except.mapError]

theorem judge_ne_aboveRoot (r : Run E P) : r.judge ≠ .error (.fault .aboveRoot) := by
  have recorded := recordDepth_ne_aboveRoot r
  have mapped : (r.recordDepth.map fun depths => (true, depths)) ≠ .error (.fault .aboveRoot) := by
    cases h : r.recordDepth with
    | ok _ => simp [Except.map]
    | error f => simpa [Except.map, h] using recorded
  have found : r.depths.get (Engine.stateId r.engine) ≠ .error (.fault .aboveRoot) := by
    unfold DepthTable.get
    split <;> simp
  unfold judge
  split_ifs
  · exact mapped
  · split
    · rename_i f missing
      rw [missing] at found
      simpa using found
    · split_ifs
      · exact mapped
      · simp
  · simp

/-- Asking for newness changes what is known of it only, and fails without any change.  Unless states
    are matched by depth, an answer that is given anew is the engine's. -/
theorem isNew_cases (r : Run E P) :
    (∃ answer depths query, isNew r = .ok answer { r with depths := depths, lastQuery := query } ∧
      (r.config.matchByMinDepth = false → query = r.lastQuery ∨
        ∃ q, query = some q ∧ q.answer = Engine.isNew r.engine)) ∨
      ∃ f, isNew r = .error f r ∧ f ≠ .fault .aboveRoot := by
  simp only [isNew, EStateM.get_bind_apply]
  by_cases matching : r.matching = true
  · rw [if_pos matching]
    cases r.cachedAnswer? with
    | some answer => exact .inl ⟨answer, r.depths, r.lastQuery, rfl, fun _ => .inl rfl⟩
    | none =>
      cases judged : r.judge with
      | ok result =>
        refine .inl ⟨result.1, result.2, _, rfl, fun plain => .inr ⟨_, rfl, ?_⟩⟩
        rw [judge_of_plain plain] at judged
        cases judged
        rfl
      | error f => exact .inr ⟨f, rfl, fun eq => judge_ne_aboveRoot r (eq ▸ judged)⟩
  · rw [if_neg matching]
    exact .inl ⟨true, r.depths, r.lastQuery, rfl, fun _ => .inl rfl⟩

/-- Any number of calls. -/
def Calls (own : Nat → Prop) : Run E P → Run E P → Prop :=
  Relation.ReflTransGen (Call own)

/-- What does not change while restrained listeners are told of an event, and how the rest may. -/
structure Attended (r r' : Run E P) : Prop where
  engine : Engine.Marked r.engine r'.engine := by exact .refl
  config : r'.config = r.config := by rfl
  depth : r'.depth = r.depth := by rfl
  matching : r'.matching = r.matching := by rfl
  atViolation : r'.atViolation = r.atViolation := by rfl
  violations : r'.violations = r.violations := by rfl
  properties : r'.properties = r.properties := by rfl
  requested : r.backtrackRequested = true → r'.backtrackRequested = true := by exact id
  done : r.done = true → r'.done = true := by exact id
  query : r.config.matchByMinDepth = false → r'.lastQuery = r.lastQuery ∨
    ∃ e q, Engine.Marked r.engine e ∧ r'.lastQuery = some q ∧ q.answer = Engine.isNew e := by
      exact fun _ => .inl rfl
  journal : ∃ asides, r'.journal.recent = asides ++ r.journal.recent ∧
    ∀ e ∈ asides, e.isAside = true := by exact ⟨[], rfl, List.forall_mem_nil _⟩

namespace Attended

variable {own : Nat → Prop} {r r' r'' : Run E P}

theorem refl (r : Run E P) : Attended r r :=
  {}

theorem trans (h : Attended r r') (h' : Attended r' r'') : Attended r r'' where
  engine := h.engine.trans h'.engine
  config := h'.config.trans h.config
  depth := h'.depth.trans h.depth
  matching := h'.matching.trans h.matching
  atViolation := h'.atViolation.trans h.atViolation
  violations := h'.violations.trans h.violations
  properties := h'.properties.trans h.properties
  requested requested := h'.requested (h.requested requested)
  done done := h'.done (h.done done)
  query plain := by
    cases h'.query (h.config ▸ plain) with
    | inl same => rw [same]; exact h.query plain
    | inr asked =>
      obtain ⟨e, q, marked, query, answer⟩ := asked
      exact .inr ⟨e, q, h.engine.trans marked, query, answer⟩
  journal := Journal.added_trans h.journal h'.journal

theorem record {e : Entry} (r : Run E P) (aside : e.isAside = true) : Attended r (r.record e) :=
  { journal := ⟨[e], rfl, by simpa using aside⟩ }

theorem isNew {answer : Bool} (h : Run.isNew r = .ok answer r') : Attended r r' := by
  obtain ⟨_, depths, query, asked, known⟩ | ⟨f, failed, -⟩ := isNew_cases r
  · rw [asked] at h
    cases h
    refine { query := fun plain => ?_ }
    cases known plain with
    | inl same => exact .inl same
    | inr given =>
      obtain ⟨q, rfl, answer⟩ := given
      exact .inr ⟨r.engine, q, .refl, rfl, answer⟩
  · rw [failed] at h
    cases h

theorem hasMemory (r : Run E P) : Attended r r.hasMemory.2 :=
  kept_hasMemory (J := Attended r) (fun _ _ h => h.trans {}) (fun r' _ _ h => h.trans (record r' rfl))
    (fun r' _ h => h.trans (record r' rfl)) (refl r)

theorem call (h : Call own r r') : Attended r r' := by
  cases h with
  | ask asked => exact isNew asked
  | gauge => exact hasMemory r
  | tally => exact {}
  | @note e _ note =>
    apply record r
    cases e <;> first | rfl | cases note
  | requestBacktrack => exact { requested := fun _ => rfl }
  | requestProbe => exact {}
  | terminate =>
    exact { done := fun _ => rfl, journal := ⟨[.terminated], rfl, by simp [Entry.isAside]⟩ }
  | ignore mark => exact { engine := .single ⟨mark, rfl⟩ }

theorem calls (h : Calls own r r') : Attended r r' := by
  induction h with
  | refl => exact refl r
  | tail _ last ih => exact ih.trans (call last)

/-- Asides tell no announcement. -/
theorem bulletins (h : Attended r r') : r'.journal.bulletins = r.journal.bulletins := by
  obtain ⟨asides, recent, aside⟩ := h.journal
  have silent : asides.reverse.filterMap Entry.bulletin? = [] := by
    rw [List.filterMap_eq_nil_iff]
    intro e member
    have := aside e (List.mem_reverse.1 member)
    cases e <;> first | rfl | cases this
  simp [Journal.bulletins, Journal.entries, recent, silent]

end Attended

variable {J : Run E P → Prop} {r r' : Run E P}

/-- One thing that happens to a run while restrained listeners are told of an event. -/
inductive Touch : Run E P → Run E P → Prop where
  | call {r r' : Run E P} : Call (fun _ => True) r r' → Touch r r'
  | aside {e : Entry} (r : Run E P) : e.isAside = true → Touch r (r.record e)

/-- No touch makes an end of it. -/
def Robust (J : Run E P → Prop) : Prop :=
  ∀ r r', J r → Touch r r' → J r'

theorem Touch.attended (h : Touch r r') : r.Attended r' := by
  cases h with
  | call call => exact .call call
  | aside _ aside => exact .record r aside

theorem Robust.of_attended (h : ∀ r r', J r → r.Attended r' → J r') : Robust J :=
  fun r r' hr touch => h r r' hr touch.attended

theorem Robust.calls (robust : Robust J) (hr : J r) (calls : r.Calls (fun _ => True) r') : J r' := by
  induction calls with
  | refl => exact hr
  | tail _ last ih => exact robust _ _ ih (.call last)

end Run

/-! ## Listeners -/

namespace Listener

theorem raisedBy_ne_aboveRoot {f : Failure} (h : f ≠ .fault .aboveRoot) (event : Event)
    (name : String) : f.raisedBy event name ≠ .fault .aboveRoot := by
  cases f <;> simp_all [Failure.raisedBy]

section Telling

variable {E P L : Type}

/-- What telling restrained listeners comes to. -/
structure Told.Within {M : Type} (allowed : M → Prop) (reached : Run E P → Prop)
    (told : Told M E P) : Prop where
  listener : allowed told.listener
  run : reached told.run
  verdict : ∀ f, told.verdict = .error f → f ≠ .fault .aboveRoot

variable [Listener E P L] {allowed : L → Prop}

/-- Whatever comes of telling the allowed listeners of an event, they maintain the statement. -/
def Maintains (allowed : L → Prop) (R : Run E P → Prop) : Prop :=
  ∀ (event : Event) (l : L) (r : Run E P), allowed l → R r →
    Ensures (· = (l, r)) (hear event) (fun _ s => allowed s.1 ∧ R s.2) fun _ s => allowed s.1 ∧ R s.2

/-- It was in telling an allowed listener of the event that things failed, with a run as `J` says. -/
def BreaksOff (allowed : L → Prop) (J : Run E P → Prop) (event : Event) (f : Failure)
    (r : Run E P) : Prop :=
  ∃ l r', allowed l ∧ J r' ∧ (tell event l r').verdict = .error f ∧ (tell event l r').run = r

theorem exists_of_verdict {event : Event} {l : L} {r : Run E P} {f : Failure}
    (h : (tell event l r).verdict = .error f) : ∃ cause s,
      hear event (l, r.record (.called (Named.name l) event)) = .error cause s ∧
        f = cause.raisedBy event (Named.name s.1) := by
  unfold tell at h
  cases heard : hear event (l, r.record (.called (Named.name l) event)) with
  | ok _ s => simp [heard] at h
  | error cause s =>
    simp only [heard, Except.error.injEq] at h
    exact ⟨cause, s, rfl, h.symm⟩

variable {R : Run E P → Prop} {r : Run E P} (maintains : Maintains allowed R)
  (asides : ∀ r e, R r → e.isAside = true → R (r.record e)) (event : Event)

include maintains asides

theorem tell_maintains {l : L} (hl : allowed l) (hr : R r) :
    allowed (tell event l r).listener ∧ R (tell event l r).run := by
  have answer := maintains event l _ hl (asides r (.called (Named.name l) event) hr rfl) _ rfl
  unfold tell
  cases heard : hear event (l, r.record (.called (Named.name l) event)) with
  | ok _ s =>
    rw [heard] at answer
    exact answer
  | error f s =>
    rw [heard] at answer
    refine ⟨answer.1, ?_⟩
    cases f <;> first | exact answer.2 | exact asides _ _ answer.2 rfl

theorem tellAll_maintains {ls : List L} (hls : ∀ l ∈ ls, allowed l) (hr : R r) :
    (∀ l ∈ (tellAll event ls r).listener, allowed l) ∧ R (tellAll event ls r).run := by
  induction ls generalizing r with
  | nil => exact ⟨hls, hr⟩
  | cons l ls ih =>
    obtain ⟨hl, others⟩ := List.forall_mem_cons.1 hls
    obtain ⟨first, told⟩ := tell_maintains maintains asides event hl hr
    simp only [tellAll]
    split
    · exact ⟨List.forall_mem_cons.2 ⟨first, others⟩, told⟩
    · obtain ⟨rest, told⟩ := ih others told
      exact ⟨List.forall_mem_cons.2 ⟨first, rest⟩, told⟩

end Telling

variable {E P L : Type} [Engine E] [Listener E P L]

/-- The allowed listeners only make calls, and never fail with the fault of a search that went above
    its root, as long as the runs they are told of are as `seen` says. -/
def Restrained (seen : Run E P → Prop) (allowed : L → Prop) : Prop :=
  ∀ (event : Event) (l : L) (r : Run E P), allowed l → seen r →
    Ensures (· = (l, r)) (hear event) (fun _ s => allowed s.1 ∧ r.Calls (fun _ => True) s.2)
      fun f s => (allowed s.1 ∧ r.Calls (fun _ => True) s.2) ∧ f ≠ .fault .aboveRoot

variable {allowed : L → Prop} {J : Run E P → Prop}

theorem Restrained.of_imp {seen : Run E P → Prop} (restrained : Restrained seen allowed)
    (imp : ∀ r, J r → seen r) : Restrained J allowed :=
  fun event l r hl hr => restrained event l r hl (imp r hr)

section Robust

variable (restrained : Restrained J allowed) (robust : Run.Robust J)

include restrained robust

theorem maintains_robust : Maintains allowed J := by
  intro event l r hl hr
  apply ((restrained event l r hl hr).imp _).imp_fail
  · exact fun _ _ h => ⟨h.1.1, robust.calls hr h.1.2⟩
  · exact fun _ _ h => ⟨h.1, robust.calls hr h.2⟩

theorem tell_robust {l : L} {r : Run E P} (hl : allowed l) (hr : J r) (event : Event) :
    (tell event l r).Within allowed J := by
  obtain ⟨listener, run⟩ := tell_maintains (maintains_robust restrained robust)
    (fun r _ hr aside => robust _ _ hr (.aside r aside)) event hl hr
  refine ⟨listener, run, fun f failed => ?_⟩
  obtain ⟨cause, s, heard, rfl⟩ := exists_of_verdict failed
  have called : J (r.record (.called (Named.name l) event)) := robust _ _ hr (.aside r rfl)
  have answer := restrained event l _ hl called _ rfl
  rw [heard] at answer
  exact raisedBy_ne_aboveRoot answer.2 _ _

/-- The listeners that are told before one fails leave the run as `J` says. -/
theorem breaksOff_of_tellAll {ls : List L} {r : Run E P} (hls : ∀ l ∈ ls, allowed l) (hr : J r)
    {event : Event} {f : Failure} (failed : (tellAll event ls r).verdict = .error f) :
    BreaksOff allowed J event f (tellAll event ls r).run := by
  induction ls generalizing r with
  | nil => cases failed
  | cons l ls ih =>
    obtain ⟨hl, others⟩ := List.forall_mem_cons.1 hls
    simp only [tellAll] at failed ⊢
    cases verdict : (tell event l r).verdict with
    | error f' =>
      rw [verdict] at failed
      cases failed
      exact ⟨l, r, hl, hr, verdict, rfl⟩
    | ok _ =>
      rw [verdict] at failed
      exact ih others (tell_robust restrained robust hl hr event).run failed

theorem BreaksOff.ne_aboveRoot {event : Event} {f : Failure} {r : Run E P}
    (h : BreaksOff allowed J event f r) : f ≠ .fault .aboveRoot := by
  obtain ⟨l, r', hl, hr, failed, -⟩ := h
  exact (tell_robust restrained robust hl hr event).verdict f failed

end Robust

end Listener

/-! ## Searches with restrained listeners -/

namespace Search

variable {E P L : Type} {allowed : L → Prop} {J : Run E P → Prop} {α : Type}

/-- All listeners and the reporter are allowed, and the run is as `J` says. -/
structure Heeded (allowed : L → Prop) (J : Run E P → Prop) (s : Search E P L) : Prop where
  listeners : ∀ l ∈ s.listeners, allowed l
  reporter : ∀ l ∈ s.reporter, allowed l
  run : J s.run

theorem Heeded.imp {K : Run E P → Prop} {s : Search E P L} (h : s.Heeded allowed J)
    (imp : ∀ r, J r → K r) : s.Heeded allowed K :=
  ⟨h.listeners, h.reporter, imp _ h.run⟩

theorem ensures_change {K : Run E P → Prop} {f : Run E P → Run E P}
    {fail : Failure → Search E P L → Prop} (h : ∀ r, J r → K (f r)) :
    Ensures (Heeded allowed J) (change f) (fun _ => Heeded allowed K) fail :=
  fun _ hs => ⟨hs.listeners, hs.reporter, h _ hs.run⟩

theorem ensures_update {K : α → Run E P → Prop} {f : Run E P → α × Run E P}
    {fail : Failure → Search E P L → Prop} (h : ∀ r, J r → K (f r).1 (f r).2) :
    Ensures (Heeded allowed J) (update f) (fun a => Heeded allowed (K a)) fail :=
  fun _ hs => ⟨hs.listeners, hs.reporter, h _ hs.run⟩

theorem ensures_look {f : Run E P → α} {fail : Failure → Search E P L → Prop} :
    Ensures (Heeded allowed J) (look f) (fun a => Heeded allowed fun r => J r ∧ f r = a) fail :=
  fun _ hs => ⟨hs.listeners, hs.reporter, hs.run, rfl⟩

theorem ensures_onRun {K : α → Run E P → Prop} {F : Failure → Run E P → Prop} {x : RunM E P α}
    (h : Ensures J x K F) :
    Ensures (Heeded allowed J) (onRun (L := L) x) (fun a => Heeded allowed (K a))
      fun f => Heeded allowed (F f) := by
  intro s hs
  have after := h s.run hs.run
  unfold onRun
  cases hx : x s.run with
  | ok a r =>
    rw [hx] at after
    exact ⟨hs.listeners, hs.reporter, after⟩
  | error f r =>
    rw [hx] at after
    exact ⟨hs.listeners, hs.reporter, after⟩

variable [Engine E] [Listener E P L] {seen K : Run E P → Prop}

theorem robust_broadcast (restrained : Listener.Restrained J allowed) (robust : Run.Robust J)
    (event : Event) :
    Ensures (Heeded allowed J) (broadcast (E := E) (P := P) (L := L) event)
      (fun _ => Heeded allowed J)
      fun f => Heeded allowed fun r => J r ∧ Listener.BreaksOff allowed J event f r := by
  intro s hs
  obtain ⟨listeners, run⟩ := Listener.tellAll_maintains (Listener.maintains_robust restrained robust)
    (fun r _ hr aside => robust _ _ hr (.aside r aside)) event hs.listeners hs.run
  simp only [broadcast]
  cases verdict : (Listener.tellAll event s.listeners s.run).verdict with
  | error f =>
    exact ⟨listeners, hs.reporter, run,
      Listener.breaksOff_of_tellAll restrained robust hs.listeners hs.run verdict⟩
  | ok _ =>
    cases reporter : s.reporter with
    | none => exact ⟨listeners, by simp, run⟩
    | some l =>
      have hl : allowed l := hs.reporter l (by simp [reporter])
      have last := Listener.tell_robust restrained robust hl run event
      have allowed' : ∀ l' ∈ some (Listener.tell event l
          (Listener.tellAll event s.listeners s.run).run).listener, allowed l' := by
        simpa using last.listener
      simp only
      cases verdict' : (Listener.tell event l (Listener.tellAll event s.listeners s.run).run).verdict with
      | error f => exact ⟨listeners, allowed', last.run, l, _, hl, run, verdict', rfl⟩
      | ok _ => exact ⟨listeners, allowed', last.run⟩

/-- An announcement is entered in the journal; then come the touches. -/
theorem robust_announce (restrained : Listener.Restrained K allowed) (robust : Run.Robust K) {event : Event}
    (announced : ∀ r n, J r → K (r.record (.announced (r.bulletin n event)))) :
    Ensures (Heeded allowed J) (announce (E := E) (P := P) (L := L) event)
      (fun _ => Heeded allowed K)
      fun f => Heeded allowed fun r => K r ∧ Listener.BreaksOff allowed K event f r := by
  apply ensures_announce_of_broadcast _ (robust_broadcast restrained robust event)
  exact fun s hs => ⟨hs.listeners, hs.reporter, announced s.run s.listeners.length hs.run⟩

/-- An announcement is entered in the journal, and then the listeners are told of it. -/
theorem ensures_announce (restrained : Listener.Restrained seen allowed)
    {F : Failure → Run E P → Prop} {event : Event}
    (announced : ∀ r n, J r → K (r.record (.announced (r.bulletin n event))))
    (shown : ∀ r, K r → seen r) (steady : ∀ r r', K r → r.Attended r' → K r')
    (failed : ∀ f r, K r → f ≠ .fault .aboveRoot → F f r) :
    Ensures (Heeded allowed J) (announce (E := E) (P := P) (L := L) event)
      (fun _ => Heeded allowed K) fun f => Heeded allowed (F f) := by
  have restrained' : Listener.Restrained K allowed := restrained.of_imp shown
  have robust : Run.Robust K := .of_attended steady
  exact (robust_announce restrained' robust announced).imp_fail fun f _ ht =>
    ht.imp fun r h => failed f r h.1 (h.2.ne_aboveRoot restrained' robust)

/-! ### Runs that lead to others -/

omit [Engine E] [Listener E P L] in
/-- If it succeeds, the operation leads from runs with `J` to runs with `K`. -/
def Leads (allowed : L → Prop) (J : Run E P → Prop) (x : SearchM E P L α)
    (K : α → Run E P → Prop) : Prop :=
  Ensures (Heeded allowed J) x (fun a => Heeded allowed (K a)) fun _ _ => True

namespace Leads

omit [Engine E] [Listener E P L]

variable {β : Type} {K : α → Run E P → Prop} {x : SearchM E P L α}

theorem pure {a : α} (h : ∀ r, J r → K a r) : Leads allowed J (Pure.pure a) K :=
  Ensures.pure fun _ hs => hs.imp h

theorem bind {f : α → SearchM E P L β} {M : β → Run E P → Prop} (hx : Leads allowed J x K)
    (hf : ∀ a, Leads allowed (K a) (f a) M) : Leads allowed J (x >>= f) M :=
  Ensures.bind hx hf

theorem of_imp {I : Run E P → Prop} (hx : Leads allowed J x K) (h : ∀ r, I r → J r) :
    Leads allowed I x K :=
  Ensures.of_imp hx fun _ hs => hs.imp h

theorem imp {M : α → Run E P → Prop} (hx : Leads allowed J x K) (h : ∀ a r, K a r → M a r) :
    Leads allowed J x M :=
  Ensures.imp hx fun a _ hs => hs.imp (h a)

theorem change {f : Run E P → Run E P} {M : Run E P → Prop} (h : ∀ r, J r → M (f r)) :
    Leads allowed J (Search.change f) fun _ => M :=
  ensures_change h

theorem update {f : Run E P → α × Run E P} (h : ∀ r, J r → K (f r).1 (f r).2) :
    Leads allowed J (Search.update f) K :=
  ensures_update h

theorem look {f : Run E P → α} : Leads allowed J (Search.look f) fun a r => J r ∧ f r = a :=
  ensures_look

theorem onRun {x : RunM E P α} (h : Ensures J x K fun _ _ => True) :
    Leads allowed J (Search.onRun x) K :=
  (ensures_onRun h).imp_fail fun _ _ _ => trivial

theorem of_exists {ι : Type} {I : ι → Run E P → Prop} (h : ∀ i, Leads allowed (I i) x K) :
    Leads allowed (fun r => ∃ i, I i r) x K := by
  intro s hs
  obtain ⟨i, hi⟩ := hs.run
  exact h i s ⟨hs.listeners, hs.reporter, hi⟩

theorem loop {ifDone : β} {iterate : α → SearchM E P L (Turn α β)} {M : β → Run E P → Prop}
    (inv : α → Run E P → Prop) (finish : ∀ a r, inv a r → r.done = true → M ifDone r)
    (step : ∀ a, Leads allowed (fun r => inv a r ∧ r.done = false) (iterate a) (Ensures.onTurn inv M))
    (budget : Nat) (a : α) :
    Leads allowed (inv a) (Statewalk.loop (·.run.done) ifDone iterate budget a) M := by
  refine Ensures.loop (fun a => Heeded allowed (inv a)) ?_ (fun _ _ _ => trivial) ?_ budget a
  · exact fun a s hs done => ⟨hs.listeners, hs.reporter, finish a _ hs.run done⟩
  · intro a
    apply (Ensures.of_imp (step a) fun s hs => ⟨hs.1.listeners, hs.1.reporter, hs.1.run, hs.2⟩).imp
    intro turn s h
    cases turn <;> exact h

end Leads

theorem leads_announce (restrained : Listener.Restrained (P := P) (fun _ : Run E P => True) allowed)
    {M : Run E P → Prop} {event : Event}
    (h : ∀ r n r', J r → (r.record (.announced (r.bulletin n event))).Attended r' → M r') :
    Leads allowed J (announce event) fun _ => M := by
  intro s hs
  let entered := s.run.record (.announced (s.run.bulletin s.listeners.length event))
  have told : Leads allowed entered.Attended (broadcast (E := E) (P := P) (L := L) event)
      fun _ => entered.Attended :=
    (robust_broadcast (restrained.of_imp fun _ _ => trivial)
      (.of_attended fun _ _ first second => first.trans second) event).imp_fail fun _ _ _ => trivial
  have attended := told.imp fun _ r' attended => h s.run s.listeners.length r' hs.run attended
  apply ensures_announce_of_broadcast (I := (· = s)) _ attended s rfl
  exact fun _ eq => eq ▸ ⟨hs.listeners, hs.reporter, .refl _⟩

end Search

/-! ## Listeners that are restrained -/

section Instances

variable {E P : Type} [Engine E] {own : Nat → Prop}

/-- All that the operation does is to make calls. -/
def RunM.Polite {α : Type} (own : Nat → Prop) (x : RunM E P α) : Prop :=
  ∀ r : Run E P, Ensures (r.Calls own) x (fun _ => r.Calls own)
    fun f r' => r.Calls own r' ∧ f ≠ .fault .aboveRoot

namespace RunM.Polite

variable {α β : Type} {x : RunM E P α} {f : α → RunM E P β}

theorem pure (a : α) : Polite own (Pure.pure a : RunM E P α) :=
  fun _ => .pure fun _ => id

theorem bind (hx : Polite own x) (hf : ∀ a, Polite own (f a)) : Polite own (x >>= f) :=
  fun r => (hx r).bind fun a => hf a r

theorem modifying {f : Run E P → Run E P} (h : ∀ r : Run E P, r.Calls own (f r)) :
    Polite own (modify f) :=
  fun _ => .modifying fun r calls => calls.trans (h r)

theorem isNew : Polite own (Run.isNew (E := E) (P := P)) := by
  intro r r' calls
  obtain ⟨answer, depths, query, asked, -⟩ | ⟨f, failed, fault⟩ := Run.isNew_cases r'
  · rw [asked]
    exact calls.tail (.ask asked)
  · rw [failed]
    exact ⟨calls, fault⟩

end RunM.Polite

theorem Statistics.polite_update {i : Nat} (owned : own i) (event : Event) :
    RunM.Polite own (Statistics.update (E := E) (P := P) i event) := by
  unfold Statistics.update
  apply RunM.Polite.bind (.modifying fun r => .single (.tally _ r owned))
  intro _
  split
  · exact RunM.Polite.isNew.bind fun _ => .modifying fun r => .single (.tally _ r owned)
  · exact .pure _

theorem Statistics.restrained (seen : Run E P → Prop) :
    Listener.Restrained seen (fun _ : Statistics => True) := by
  rintro event l r - - _ rfl
  have polite : RunM.Polite (fun _ => True) (Statistics.update (E := E) (P := P) l.tally event) :=
    Statistics.polite_update trivial event
  have updated := polite r r .refl
  have hear : Listener.hear event (l, r) = Listener.onRun (Statistics.update l.tally event) (l, r) := rfl
  rw [hear, Listener.onRun]
  cases result : Statistics.update (E := E) (P := P) l.tally event r with
  | ok _ r' =>
    rw [result] at updated
    exact ⟨trivial, updated⟩
  | error f r' =>
    rw [result] at updated
    exact ⟨⟨trivial, updated.1⟩, updated.2⟩

/-! ### Rules -/

/-- The action is a question, a request or a mark. -/
def Action.isMild : Action P → Bool
  | .takeBacktrack => false
  | .setMatching _ => false
  | .setDepthLimit _ => false
  | .raise _ => false
  | .engineForward => false
  | .engineBacktrack => false
  | .engineResetChoice => false
  | .truncatePath _ => false
  | .setThread .. => false
  | _ => true

section Rules

theorem Action.polite_look (f : Run E P → Json) : RunM.Polite own (Action.look f) :=
  fun _ _ => id

theorem Action.polite_change {f : Run E P → Run E P} (h : ∀ r : Run E P, r.Calls own (f r)) :
    RunM.Polite own (Action.change f) :=
  (RunM.Polite.modifying h).bind fun _ => .pure _

theorem Action.polite_ask {f : Run E P → Bool × Run E P} (h : ∀ r : Run E P, r.Calls own (f r).2) :
    RunM.Polite own (Action.ask f) :=
  fun _ r calls => calls.trans (h r)

theorem Run.calls_endsAtViolation (r : Run E P) : r.Calls own r.endsAtViolation.2 := by
  unfold Run.endsAtViolation
  split
  · split
    · exact .refl
    · exact .single (.requestBacktrack r)
  · exact .refl

variable [Property P]

theorem Action.polite_perform {action : Action P} (mild : action.isMild = true) :
    RunM.Polite own (action.perform (E := E)) := by
  cases action with
  | terminate => exact polite_change fun r => .single (.terminate r)
  | requestBacktrack => exact polite_ask fun r => .single (.requestBacktrack r)
  | requestProbe => exact polite_change fun r => .single (.requestProbe r)
  | ignore mark => exact polite_change fun r => .single (.ignore mark r)
  | hasMemory => exact polite_ask fun r => .single (.gauge r)
  | endsAtViolation => exact polite_ask Run.calls_endsAtViolation
  | isNew => exact RunM.Polite.isNew.bind fun _ => .pure _
  | isVisited => exact RunM.Polite.isNew.bind fun _ => .pure _
  | stateDepth state =>
    intro r r' calls
    simp only [perform, EStateM.get_bind_apply]
    unfold DepthTable.get
    cases r'.depths.find? state with
    | some d => exact calls
    | none => exact ⟨calls, by simp⟩
  | _ => first | exact polite_look _ | cases mild

/-- The deed is to fail, or a mild action. -/
def Deed.isMild : Deed P → Bool
  | .fail _ => true
  | .act _ action => action.isMild

theorem RuleListener.polite_carryOut (name : String) {deed : Deed P} (mild : deed.isMild = true) :
    RunM.Polite own (carryOut (E := E) name deed) := by
  cases deed with
  | fail reason => exact fun _ => .throw fun _ calls => ⟨calls, by simp⟩
  | act word action =>
    apply (Action.polite_perform mild).bind
    exact fun _ => .modifying fun r => .single (.note r rfl)

theorem RuleListener.follow_within (name : String) (event : Event) {qs : List (Rule P)}
    (mild : ∀ q ∈ qs, q.deed.isMild = true) (r : Run E P) :
    (follow name event qs r).Within (fun qs => ∀ q ∈ qs, q.deed.isMild = true) (r.Calls own) := by
  induction qs generalizing r with
  | nil => exact ⟨mild, .refl, by simp [follow]⟩
  | cons q qs ih =>
    obtain ⟨first, others⟩ := List.forall_mem_cons.1 mild
    have passed := ih others r
    simp only [follow]
    split
    · split
      · have polite : RunM.Polite own (carryOut (E := E) name q.deed) := polite_carryOut name first
        have carried := polite r r .refl
        cases result : carryOut (E := E) name q.deed r with
        | error f r' =>
          rw [result] at carried
          refine ⟨List.forall_mem_cons.2 ⟨first, others⟩, carried.1, ?_⟩
          intro f' eq
          cases eq
          exact carried.2
        | ok _ r' =>
          rw [result] at carried
          have rest := ih others r'
          exact ⟨List.forall_mem_cons.2 ⟨first, rest.listener⟩, carried.trans rest.run, rest.verdict⟩
      · exact ⟨List.forall_mem_cons.2 ⟨first, passed.listener⟩, passed.run, passed.verdict⟩
    · exact ⟨List.forall_mem_cons.2 ⟨first, passed.listener⟩, passed.run, passed.verdict⟩

/-- All rules of the listener are mild. -/
def RuleListener.isMild (l : RuleListener P) : Prop :=
  ∀ q ∈ l.rules, q.deed.isMild = true

/-- The remark comes first, then the rules are followed. -/
theorem RuleListener.hear_cases (event : Event) (l : RuleListener P) (r : Run E P) :
    ∃ r', (r' = r ∨ ∃ j, r' = r.record (.remarked j)) ∧
      (∀ u, (follow l.name event l.rules r').verdict = .ok u → Listener.hear event (l, r) =
        .ok () ({ l with rules := (follow l.name event l.rules r').listener },
          (follow l.name event l.rules r').run)) ∧
      ∀ f, (follow l.name event l.rules r').verdict = .error f → Listener.hear event (l, r) =
        .error f ({ l with rules := (follow l.name event l.rules r').listener },
          (follow l.name event l.rules r').run) := by
  cases said : l.remark? event r with
  | some j =>
    refine ⟨r.record (.remarked j), .inr ⟨j, rfl⟩, ?_, ?_⟩ <;> intro _ verdict <;>
      simp only [Listener.hear, RuleListener.hear, said, verdict]
  | none =>
    refine ⟨r, .inl rfl, ?_, ?_⟩ <;> intro _ verdict <;>
      simp only [Listener.hear, RuleListener.hear, said, verdict]

omit [Property P] in
theorem Run.calls_of_remark {r r' : Run E P} (remark : r' = r ∨ ∃ j, r' = r.record (.remarked j)) :
    r.Calls own r' := by
  obtain rfl | ⟨j, rfl⟩ := remark
  · exact .refl
  · exact .single (.note r rfl)

theorem RuleListener.ensures_hear (event : Event) {l : RuleListener P} (mild : l.isMild) (r : Run E P) :
    Ensures (· = (l, r)) (Listener.hear event) (fun _ s => s.1.isMild ∧ r.Calls own s.2)
      fun f s => (s.1.isMild ∧ r.Calls own s.2) ∧ f ≠ .fault .aboveRoot := by
  rintro _ rfl
  obtain ⟨r', remark, passes, fails⟩ := hear_cases event l r
  have called : r.Calls own r' := Run.calls_of_remark remark
  have followed : (follow l.name event l.rules r').Within (fun qs => ∀ q ∈ qs, q.deed.isMild = true)
      (r'.Calls own) := follow_within l.name event mild r'
  cases verdict : (follow l.name event l.rules r').verdict with
  | ok u =>
    rw [passes u verdict]
    exact ⟨followed.listener, called.trans followed.run⟩
  | error f =>
    rw [fails f verdict]
    exact ⟨⟨followed.listener, called.trans followed.run⟩, followed.verdict f verdict⟩

theorem RuleListener.restrained (seen : Run E P → Prop) :
    Listener.Restrained seen (RuleListener.isMild (P := P)) :=
  fun event _ r mild _ => ensures_hear event mild r

end Rules

end Instances

/-- A listener that asks, takes marks away and requests progress events. -/
def inquirer : RuleListener Subject :=
  { name := "inquirer"
    rules := [
      { event := .stateAdvanced, deed := .act "is_new" .isNew },
      { event := .stateBacktracked, deed := .act "ignore" (.ignore false) },
      { event := .stateProcessed, deed := .act "request_probe" .requestProbe }] }

theorem inquirer_isMild : inquirer.isMild := by
  simp [RuleListener.isMild, inquirer, Deed.isMild, Action.isMild]

/-- A listener that asks, marks, steps back and in the end stops the search. -/
def meddler : RuleListener Subject :=
  { name := "meddler"
    rules := [
      { event := .stateAdvanced, state := some 1, deed := .act "ignore" (.ignore true) },
      { event := .stateAdvanced, deed := .act "is_new" .isNew },
      { event := .stateAdvanced, depth := some 1, after := some 1
        deed := .act "request_backtrack" .requestBacktrack },
      { event := .stateProcessed, deed := .act "request_probe" .requestProbe },
      { event := .searchProbed, nth := some 2, deed := .act "terminate" .terminate },
      { event := .searchFinished, deed := .fail "meddled to the end" }] }

theorem meddler_isMild : meddler.isMild := by
  simp [RuleListener.isMild, meddler, Deed.isMild, Action.isMild]

end Statewalk
