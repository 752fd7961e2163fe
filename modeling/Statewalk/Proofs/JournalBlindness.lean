import Statewalk.Proofs.Conduct
import Statewalk.Proofs.QuietRuns

/-! # Operations that do not read the journal

The journal is written while a search goes on, and read afterwards.  An operation is blind to it when it does
the same whatever the journal holds: it comes to the same verdict, leaves the same state but for the journal,
and adds the same entries.  Strategies are blind to the journal as long as their properties and their
listeners are.
-/

namespace Statewalk

/-- The journal with these entries added, the latest first. -/
def Journal.extended (notes : List Entry) (j : Journal) : Journal :=
  { recent := notes ++ j.recent }

theorem Journal.extended_append (notes' notes : List Entry) (j : Journal) :
    (j.extended notes).extended notes' = j.extended (notes' ++ notes) := by
  simp [extended]

/-! ## Blind operations -/

section Blind

variable {σ α β : Type} {put : Journal → σ → σ} {x : EStateM Failure σ α} {f : α → EStateM Failure σ β}

/-- Whatever the journal that is put in is, the operation does the same. -/
def Blind (put : Journal → σ → σ) (x : EStateM Failure σ α) : Prop :=
  ∀ s, ∃ verdict t notes, ∀ j, x (put j s) = resultOf verdict (put (j.extended notes) t)

namespace Blind

theorem pure (a : α) : Blind put (Pure.pure a) :=
  fun s => ⟨.ok a, s, [], fun _ => rfl⟩

theorem throw (failure : Failure) : Blind put (MonadExcept.throw failure : EStateM Failure σ α) :=
  fun s => ⟨.error failure, s, [], fun _ => rfl⟩

theorem bind (hx : Blind put x) (hf : ∀ a, Blind put (f a)) : Blind put (x >>= f) := by
  intro s
  obtain ⟨verdict, t, notes, done⟩ := hx s
  simp only [Bind.bind, EStateM.bind, done]
  cases verdict with
  | error failure => exact ⟨.error failure, t, notes, fun _ => rfl⟩
  | ok a =>
    obtain ⟨verdict, u, more, after⟩ := hf a t
    refine ⟨verdict, u, more ++ notes, fun j => ?_⟩
    rw [← Journal.extended_append]
    exact after (j.extended notes)

theorem loop {isDone : σ → Bool} {ifDone : β} {iterate : α → EStateM Failure σ (Turn α β)}
    (seen : ∀ j s, isDone (put j s) = isDone s) (step : ∀ a, Blind put (iterate a)) (budget : Nat) (a : α) :
    Blind put (Statewalk.loop isDone ifDone iterate budget a) := by
  induction budget generalizing a with
  | zero => exact throw _
  | succ budget ih =>
    intro s
    cases done : isDone s with
    | true => exact ⟨.ok ifDone, s, [], fun j => loop_succ_of_done ((seen j s).trans done) budget a⟩
    | false =>
      simp only [loop_succ_of_not_done ((seen _ s).trans done)]
      refine (step a).bind ?_ s
      rintro (b | b)
      · exact ih b
      · exact pure b

end Blind

end Blind

/-! ## Runs -/

namespace Run

variable {E P α : Type}

/-- The run with another journal. -/
def withJournal (j : Journal) (r : Run E P) : Run E P :=
  { r with journal := j }

/-- The operation writes to the journal at most, and does not read it. -/
def Writes (f : Run E P → α × Run E P) : Prop :=
  ∀ r, ∃ notes, ∀ j, f (r.withJournal j) = ((f r).1, (f r).2.withJournal (j.extended notes))

theorem Writes.blind {f : Run E P → α × Run E P} (h : Writes f) :
    Blind withJournal (modifyGet f : RunM E P α) := by
  intro r
  obtain ⟨notes, written⟩ := h r
  refine ⟨.ok (f r).1, (f r).2, notes, fun j => ?_⟩
  show EStateM.Result.ok (f _).1 (f _).2 = _
  rw [written]
  rfl

section Moves

variable [Engine E]

theorem exists_stepJournal_eq (r : Run E P) : ∃ notes, ∀ j, r.stepJournal j = j.extended notes := by
  unfold stepJournal
  split
  · exact ⟨[_, _], fun _ => rfl⟩
  · exact ⟨[_], fun _ => rfl⟩

theorem writes_stepForward : Writes (stepForward (E := E) (P := P)) := by
  intro r
  obtain ⟨notes, written⟩ := r.exists_stepJournal_eq
  refine ⟨notes, fun j => ?_⟩
  rw [stepForward_eq, stepForward_eq, ← written]
  rfl

theorem writes_stepBack : Writes (stepBack (E := E) (P := P)) :=
  fun r => ⟨[.moved .backtrack r.depth (Engine.backtrack r.engine).1], fun _ => rfl⟩

theorem blind_isNew : Blind withJournal (isNew (E := E) (P := P)) := by
  intro r
  cases asked : r.inquire with
  | ok result =>
    obtain ⟨answer, depths, query⟩ := result
    exact ⟨.ok answer, { r with depths := depths, lastQuery := query }, [], fun _ => isNew_of_inquire asked⟩
  | error f => exact ⟨.error f, r, [], fun _ => isNew_of_inquire_error asked⟩

end Moves

theorem writes_reclaim : Writes fun r : Run E P => ((), r.reclaim) := by
  intro r
  -- Only a process tells of the memory it gave back.
  by_cases process : r.memory.reclaim.isProcess = true
  · refine ⟨[.reclaimed r.memory.reclaim.reclaims], fun j => ?_⟩
    simp only [reclaim, withJournal, process, if_true]
    rfl
  · refine ⟨[], fun j => ?_⟩
    simp only [reclaim, withJournal, process]
    rfl

theorem writes_hasMemory : Writes (hasMemory (E := E) (P := P)) := by
  intro r
  have measured (j : Journal) (r : Run E P) :
      (r.withJournal j).availableMemory = (r.availableMemory.1, r.availableMemory.2.withJournal j) := rfl
  rcases first : r.availableMemory with ⟨_ | amount, r'⟩
  · refine ⟨[], fun j => ?_⟩
    simp only [hasMemory, measured, first]
    rfl
  · by_cases low : amount < r.config.minFreeMemory.bytes
    · -- The warning and what giving memory back adds come before the second measurement.
      let warning : Entry := .memoryLow amount r.config.minFreeMemory.bytes
      obtain ⟨notes, given⟩ := writes_reclaim r'
      have again (j : Journal) : ((r'.withJournal j).record warning).reclaim.availableMemory =
          (r'.reclaim.availableMemory.1,
            r'.reclaim.availableMemory.2.withJournal (j.extended (notes ++ [warning]))) := by
        rw [← Journal.extended_append, ← measured]
        exact congrArg (fun p => p.2.availableMemory) (given (j.record warning))
      have here : (r'.record warning).reclaim.availableMemory = _ := again r'.journal
      refine ⟨notes ++ [warning], fun j => ?_⟩
      have bytes : (r.withJournal j).config.minFreeMemory.bytes = r.config.minFreeMemory.bytes := rfl
      simp only [hasMemory, measured, first, bytes, if_pos low]
      rw [again, here]
      cases r'.reclaim.availableMemory.1 <;> rfl
    · refine ⟨[], fun j => ?_⟩
      have bytes : (r.withJournal j).config.minFreeMemory.bytes = r.config.minFreeMemory.bytes := rfl
      simp only [hasMemory, measured, first, bytes, if_neg low]
      rfl

section Properties

variable [Engine E]

theorem writes_violate [Property P] (w : Watched P) : Writes fun r : Run E P => ((), r.violate w) :=
  fun r => ⟨[.violated (r.violations.length + 1) (Named.name w.property) r.depth], fun _ => rfl⟩

/-- No property looks at the journal. -/
def ChecksIgnoreJournal (E P : Type) [Checkable E P] : Prop :=
  ∀ (r : Run E P) (j : Journal) (p : P), Checkable.check (r.withJournal j) p = Checkable.check r p

variable [Checkable E P]

theorem writes_checkProperties (ignores : ChecksIgnoreJournal E P) :
    Writes (checkProperties (E := E) (P := P)) := by
  have same (r : Run E P) (j : Journal) (ws : List (Watched P)) :
      checkUntil (r.withJournal j) ws = checkUntil r ws := by
    induction ws with
    | nil => rfl
    | cons w ws ih => simp only [checkUntil, ignores r j, ih]
  intro r
  rcases checked : checkUntil r r.properties with ⟨properties, _ | w⟩
  · refine ⟨[], fun j => ?_⟩
    have checked' : checkUntil (r.withJournal j) (r.withJournal j).properties = (properties, none) :=
      (same r j _).trans checked
    simp only [checkProperties, checked, checked']
    rfl
  · obtain ⟨notes, written⟩ := writes_violate w { r with properties := properties }
    refine ⟨notes, fun j => ?_⟩
    have checked' : checkUntil (r.withJournal j) (r.withJournal j).properties = (properties, some w) :=
      (same r j _).trans checked
    simp only [checkProperties, checked, checked']
    exact congrArg (fun p => (true, p.2)) (written j)

end Properties

end Run

/-! ## Listeners with rules -/

section Listeners

variable {E P : Type}

/-- The listeners do the same whatever the journal of the run holds. -/
def Listener.IgnoresJournal (E P L : Type) [Listener E P L] : Prop :=
  ∀ event : Event, Blind (fun j (s : L × Run E P) => (s.1, s.2.withJournal j)) (hear event)

namespace Action

theorem blind_change {f : Run E P → Run E P} (h : Run.Writes fun r => ((), f r)) :
    Blind Run.withJournal (change f) :=
  h.blind.bind fun _ => .pure _

theorem blind_ask {f : Run E P → Bool × Run E P} (h : Run.Writes f) : Blind Run.withJournal (ask f) :=
  h.blind.bind fun _ => .pure _

theorem blind_look {f : Run E P → Json} (h : ∀ j r, f (r.withJournal j) = f r) :
    Blind Run.withJournal (look f) :=
  fun r => ⟨.ok (f r), r, [], fun j => congrArg (EStateM.Result.ok · (r.withJournal j)) (h j r)⟩

variable [Engine E] [Property P]

theorem blind_perform (action : Action P) : Blind Run.withJournal (action.perform (E := E)) := by
  cases action with
  | terminate => exact blind_change fun _ => ⟨[.terminated], fun _ => rfl⟩
  | isNew | isVisited => exact Run.blind_isNew.bind fun _ => .pure _
  | stateDepth state =>
    intro r
    have seen (j : Journal) : perform (.stateDepth state) (r.withJournal j) =
        resultOf ((r.depths.get state).map .nat) (r.withJournal j) := by
      simp only [perform, EStateM.get_bind_apply]
      have same : (r.withJournal j).depths = r.depths := rfl
      rw [same]
      cases r.depths.get state <;> rfl
    exact ⟨_, r, [], seen⟩
  | hasMemory => exact blind_ask Run.writes_hasMemory
  | raise p =>
    have raised : Run.Writes fun r : Run E P => ((), r.raise p) := by
      intro r
      let w : Watched P := { key := r.nextKey, property := p }
      exact Run.writes_violate w { r with retired := r.retired ++ [w] }
    exact raised.blind.bind fun _ => blind_look fun _ _ => rfl
  | endsAtViolation =>
    apply blind_ask
    intro r
    refine ⟨[], fun j => ?_⟩
    have seen : (r.withJournal j).endsAtViolation =
        if r.atViolation then (if r.done then (true, r.withJournal j) else (false, r.requestBacktrack.withJournal j))
        else (false, r.withJournal j) := rfl
    rw [seen, Run.endsAtViolation]
    split
    · split <;> rfl
    · rfl
  | engineForward => exact blind_ask Run.writes_stepForward
  | engineBacktrack => exact blind_ask Run.writes_stepBack
  | _ =>
    first
    | exact blind_change fun _ => ⟨[], fun _ => rfl⟩
    | exact blind_ask fun _ => ⟨[], fun _ => rfl⟩
    | exact blind_look fun _ _ => rfl

end Action

namespace RuleListener

variable [Engine E] [Property P]

theorem blind_carryOut (name : String) (deed : Deed P) : Blind Run.withJournal (carryOut (E := E) name deed) := by
  cases deed with
  | fail reason => exact .throw _
  | act word action =>
    refine (action.blind_perform).bind fun answer => ?_
    let remark : Entry := .remarked (.arr [.text name, .text "->", .text word, answer])
    have noted : Run.Writes fun r : Run E P => ((), r.record remark) := fun _ => ⟨[remark], fun _ => rfl⟩
    exact noted.blind

theorem follow_withJournal (name : String) (event : Event) (qs : List (Rule P)) (r : Run E P) :
    ∃ verdict rules r' notes, ∀ j, follow name event qs (r.withJournal j) =
      { verdict, listener := rules, run := Run.withJournal (j.extended notes) r' } := by
  induction qs generalizing r with
  | nil => exact ⟨.ok (), [], r, [], fun _ => rfl⟩
  | cons q qs ih =>
    -- Whether a rule applies does not depend on the journal.
    have concerned (j : Journal) : concerns event (r.withJournal j) q = concerns event r q := rfl
    obtain ⟨verdict, rules, r', notes, passed⟩ := ih r
    simp only [follow, concerned]
    split
    · split
      · obtain ⟨outcome, after, deeds, carried⟩ := blind_carryOut name q.deed r
        cases outcome with
        | error f =>
          refine ⟨.error f, { q with matched := q.matched + 1 } :: qs, after, deeds, fun j => ?_⟩
          rw [carried]
          rfl
        | ok u =>
          obtain ⟨verdict, rules, r', notes, passed⟩ := ih after
          refine ⟨verdict, { q with matched := q.matched + 1 } :: rules, r', notes ++ deeds, fun j => ?_⟩
          simp only [carried, resultOf, passed, Journal.extended_append]
      · refine ⟨verdict, { q with matched := q.matched + 1 } :: rules, r', notes, fun j => ?_⟩
        rw [passed]
    · refine ⟨verdict, q :: rules, r', notes, fun j => ?_⟩
      rw [passed]

/-- Listeners with rules do not read the journal, whatever their rules are. -/
theorem ignoresJournal : Listener.IgnoresJournal E P (RuleListener P) := by
  rintro event ⟨l, r⟩
  obtain ⟨opening, remarked⟩ : ∃ notes, ∀ j,
      l.remarked event (r.withJournal j) = r.withJournal (j.extended notes) := by
    have seen (j : Journal) : l.remark? event (r.withJournal j) = l.remark? event r := rfl
    cases said : l.remark? event r with
    | none =>
      refine ⟨[], fun j => ?_⟩
      rw [RuleListener.remarked, seen, said]
      rfl
    | some remark =>
      refine ⟨[.remarked remark], fun j => ?_⟩
      rw [RuleListener.remarked, seen, said]
      rfl
  obtain ⟨verdict, rules, r', notes, followed⟩ := follow_withJournal l.name event l.rules r
  refine ⟨verdict, ({ l with rules := rules }, r'), notes ++ opening, fun j => ?_⟩
  rw [hear_eq_follow, remarked, followed, Journal.extended_append]

end RuleListener

end Listeners

/-! ## Searches -/

namespace Search

variable {E P L α : Type}

/-- The search with another journal. -/
def withJournal (j : Journal) (s : Search E P L) : Search E P L :=
  { s with run := s.run.withJournal j }

theorem blind_onRun {x : RunM E P α} (h : Blind Run.withJournal x) :
    Blind withJournal (onRun x : SearchM E P L α) := by
  intro s
  obtain ⟨verdict, r, notes, done⟩ := h s.run
  refine ⟨verdict, { s with run := r }, notes, fun j => ?_⟩
  have here : x (s.withJournal j).run = resultOf verdict (r.withJournal (j.extended notes)) := done j
  rw [onRun, here]
  cases verdict <;> rfl

theorem blind_update {f : Run E P → α × Run E P} (h : Run.Writes f) :
    Blind withJournal (update f : SearchM E P L α) :=
  blind_onRun h.blind

theorem blind_change {f : Run E P → Run E P} (h : Run.Writes fun r => ((), f r)) :
    Blind withJournal (change f : SearchM E P L Unit) :=
  blind_onRun h.blind

theorem blind_look {f : Run E P → α} (h : ∀ j r, f (r.withJournal j) = f r) :
    Blind withJournal (look f : SearchM E P L α) :=
  fun s => ⟨.ok (f s.run), s, [], fun j => congrArg (EStateM.Result.ok · (s.withJournal j)) (h j s.run)⟩

theorem blind_descend : Blind withJournal (onRun Run.descend : SearchM E P L Unit) := by
  apply blind_onRun
  intro r
  have seen (j : Journal) : addWords (r.withJournal j).depth 1 = addWords r.depth 1 := rfl
  simp only [Run.descend_apply, seen]
  cases addWords r.depth 1 with
  | ok d => exact ⟨.ok (), { r with depth := d }, [], fun _ => rfl⟩
  | error f => exact ⟨.error (.fault f), r, [], fun _ => rfl⟩

section Telling

variable [Listener E P L] (ignores : Listener.IgnoresJournal E P L)

include ignores

theorem tell_withJournal (event : Event) (l : L) (r : Run E P) :
    ∃ verdict l' r' notes, ∀ j, Listener.tell event l (r.withJournal j) =
      { verdict, listener := l', run := Run.withJournal (j.extended notes) r' } := by
  let call : Entry := .called (Named.name l) event
  obtain ⟨verdict, ⟨l', r'⟩, notes, hears⟩ := ignores event (l, r)
  have heard (j : Journal) : Listener.hear event (l, (r.withJournal j).record call) =
      resultOf verdict (l', r'.withJournal (j.extended (notes ++ [call]))) := by
    rw [← Journal.extended_append]
    exact hears (j.record call)
  cases verdict with
  | ok _ =>
    refine ⟨.ok (), l', r', notes ++ [call], fun j => ?_⟩
    rw [Listener.tell, heard]
    rfl
  | error f =>
    -- The failure is noted, unless it is a fault or the budget was spent.
    obtain ⟨more, noted⟩ : ∃ more, ∀ j, Listener.noteFailure event (Named.name l') (r'.withJournal j) f =
        r'.withJournal (j.extended more) := by
      cases f <;> first | exact ⟨[], fun _ => rfl⟩ | exact ⟨[_], fun _ => rfl⟩
    refine ⟨.error (f.raisedBy event (Named.name l')), l', r', more ++ (notes ++ [call]), fun j => ?_⟩
    rw [Listener.tell, heard, ← Journal.extended_append more, ← noted]
    rfl

theorem tellAll_withJournal (event : Event) (ls : List L) (r : Run E P) :
    ∃ verdict ls' r' notes, ∀ j, Listener.tellAll event ls (r.withJournal j) =
      { verdict, listener := ls', run := Run.withJournal (j.extended notes) r' } := by
  induction ls generalizing r with
  | nil => exact ⟨.ok (), [], r, [], fun _ => rfl⟩
  | cons l ls ih =>
    obtain ⟨verdict, l', r', notes, told⟩ := tell_withJournal ignores event l r
    simp only [Listener.tellAll, told]
    cases verdict with
    | error f => exact ⟨.error f, l' :: ls, r', notes, fun _ => rfl⟩
    | ok _ =>
      obtain ⟨verdict, ls', r'', more, others⟩ := ih r'
      refine ⟨verdict, l' :: ls', r'', more ++ notes, fun j => ?_⟩
      simp only [others, Journal.extended_append]

theorem blind_broadcast (event : Event) : Blind withJournal (broadcast event : SearchM E P L Unit) := by
  intro s
  obtain ⟨verdict, ls, r, notes, told⟩ := tellAll_withJournal ignores event s.listeners s.run
  have all (j : Journal) : Listener.tellAll event (s.withJournal j).listeners (s.withJournal j).run = _ := told j
  simp only [broadcast, all]
  cases verdict with
  | error f => exact ⟨.error f, { s with listeners := ls, run := r }, notes, fun _ => rfl⟩
  | ok _ =>
    have seen (j : Journal) : (s.withJournal j).reporter = s.reporter := rfl
    simp only [seen]
    cases s.reporter with
    | none => exact ⟨.ok (), { listeners := ls, run := r, reporter := none }, notes, fun _ => rfl⟩
    | some l =>
      obtain ⟨verdict, l', r', more, reported⟩ := tell_withJournal ignores event l r
      simp only [reported, Journal.extended_append]
      let t : Search E P L := { listeners := ls, run := r', reporter := some l' }
      cases verdict with
      | error f => exact ⟨.error f, t, more ++ notes, fun _ => rfl⟩
      | ok _ => exact ⟨.ok (), t, more ++ notes, fun _ => rfl⟩

section Moves

variable [Engine E]

theorem blind_announce (event : Event) : Blind withJournal (announce event : SearchM E P L Unit) := by
  refine Blind.bind (fun s => ?_) fun _ => blind_broadcast ignores event
  exact ⟨.ok (), s, [.announced (s.bulletin event)], fun _ => rfl⟩

theorem blind_pollProbe : Blind withJournal (pollProbe : SearchM E P L Unit) := by
  apply Blind.bind (blind_update fun _ => ⟨[], fun _ => rfl⟩)
  intro requested
  cases requested with
  | true => exact blind_announce ignores _
  | false => exact .pure _

theorem blind_announceViolation [Property P] : Blind withJournal (announceViolation : SearchM E P L Unit) := by
  apply (blind_announce ignores .propertyViolated).bind
  intro _
  apply (blind_look fun _ _ => rfl).bind
  intro goesOn
  cases goesOn with
  | true => exact blind_change fun _ => ⟨[], fun _ => rfl⟩
  | false => exact .pure _

theorem blind_settleDeadEnd [Property P] : Blind withJournal (settleDeadEnd : SearchM E P L StopReason) := by
  apply (blind_announce ignores .stateProcessed).bind
  intro _
  apply (blind_look fun _ _ => rfl).bind
  intro violated
  cases violated with
  | true => exact (blind_announceViolation ignores).bind fun _ => .pure _
  | false => exact .pure _

omit ignores in
omit [Listener E P L] in
theorem blind_forward [Checkable E P] (ignores : Run.ChecksIgnoreJournal E P) :
    Blind withJournal (forward : SearchM E P L Bool) := by
  apply (blind_change fun _ => ⟨[], fun _ => rfl⟩).bind
  intro _
  apply (blind_update Run.writes_stepForward).bind
  intro advanced
  exact (blind_update (Run.writes_checkProperties ignores)).bind fun _ => .pure _

end Moves

end Telling

end Search

end Statewalk
