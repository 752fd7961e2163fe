import Statewalk.Proofs.Restraint
import Statewalk.Proofs.Trails

/-! # Minutes

A listener is lawful when it neither calls off the end of a search nor changes the limit of its queue,
keeps its name, leaves the minutes in the journal alone, which tell of announcements and calls, and does
not fail as if a budget was spent.  All that lawful listeners and the search do is then found in the
journal, in order, and an end that was asked for stays asked for.
-/

namespace Statewalk

/-- An entry that tells of an announcement or of a call. -/
def Entry.isMinute : Entry → Bool
  | .announced _ => true
  | .called .. => true
  | _ => false

/-- The call that an entry tells of. -/
def Entry.call? : Entry → Option (String × Event)
  | .called listener event => some (listener, event)
  | _ => none

namespace Journal

/-- The calls told in a journal, in order. -/
def calls (j : Journal) : List (String × Event) :=
  j.entries.filterMap Entry.call?

@[simp] theorem calls_record (e : Entry) (j : Journal) : (j.record e).calls = j.calls ++ e.call?.toList := by
  cases call : e.call? <;> simp [calls, call]

end Journal

/-! ## Runs in the hands of others -/

namespace Run

variable {E P : Type} {r r' r'' : Run E P}

/-- What may become of a run that was entrusted to somebody. -/
structure Entrusted (r r' : Run E P) : Prop where
  done : r.done = true → r'.done = true
  queueLimit : r'.config.queueLimit = r.config.queueLimit
  journal : ∃ asides, r'.journal.recent = asides ++ r.journal.recent ∧ ∀ e ∈ asides, e.isMinute = false

namespace Entrusted

theorem of_eq (done : r.done = true → r'.done = true) (queueLimit : r'.config.queueLimit = r.config.queueLimit)
    (journal : r'.journal = r.journal) : Entrusted r r' :=
  ⟨done, queueLimit, [], by rw [journal, List.nil_append], List.forall_mem_nil _⟩

theorem refl (r : Run E P) : Entrusted r r :=
  of_eq id rfl rfl

theorem trans (h : Entrusted r r') (h' : Entrusted r' r'') : Entrusted r r'' where
  done done := h'.done (h.done done)
  queueLimit := h'.queueLimit.trans h.queueLimit
  journal := Journal.added_trans h.journal h'.journal

theorem record {e : Entry} (r : Run E P) (aside : e.isMinute = false) : Entrusted r (r.record e) :=
  ⟨id, rfl, [e], rfl, by simpa using aside⟩

theorem of_chore (h : Chore r r') : Entrusted r r' where
  done := h.done
  queueLimit := by rw [h.config]
  journal := by
    obtain ⟨notes, recent, chores⟩ := h.journal
    refine ⟨notes, recent, ?_⟩
    intro e member
    have chore := chores e member
    cases e <;> first | rfl | cases chore

section Moves

variable [Engine E]

theorem stepForward (r : Run E P) : Entrusted r r.stepForward.2 := by
  have moved : Entrusted r ({ r with engine := (Engine.forward r.engine).2 }.record
      (.moved .forward r.depth (Engine.forward r.engine).1)) :=
    ⟨id, rfl, [_], rfl, by simp [Entry.isMinute]⟩
  simp only [Run.stepForward]
  split
  · rename_i crossed
    apply moved.trans (record _ _)
    unfold crossing? at crossed
    split at crossed
    · obtain ⟨t, -, rfl⟩ := Option.map_eq_some_iff.1 crossed
      rfl
    · cases crossed
  · exact moved

theorem stepBack (r : Run E P) : Entrusted r r.stepBack.2 :=
  ⟨id, rfl, [_], rfl, by simp [Entry.isMinute]⟩

theorem stepTo (snapshot : Snapshot (Engine.Saved E)) (r : Run E P) : Entrusted r (r.stepTo snapshot).2 :=
  ⟨id, rfl, [_], rfl, by simp [Entry.isMinute]⟩

theorem violate [Property P] (w : Watched P) (r : Run E P) : Entrusted r (r.violate w) :=
  ⟨fun done => by simp [Run.violate, Run.record, done], rfl, [_], rfl, by simp [Entry.isMinute]⟩

theorem checkProperties [Checkable E P] (r : Run E P) : Entrusted r r.checkProperties.2 := by
  have checked : Entrusted r { r with properties := (checkUntil r r.properties).1 } := of_eq id rfl rfl
  simp only [Run.checkProperties]
  split
  · exact checked.trans (violate _ _)
  · exact checked

theorem isNew {answer : Bool} (h : Run.isNew r = .ok answer r') : Entrusted r r' := by
  obtain ⟨_, depths, query, asked, -⟩ | ⟨f, failed, -⟩ := isNew_cases r
  · rw [asked] at h
    cases h
    exact of_eq id rfl rfl
  · rw [failed] at h
    cases h

end Moves

/-- Asides tell neither announcements nor calls. -/
theorem filterMap_eq {α : Type} (h : Entrusted r r') {f : Entry → Option α}
    (aside : ∀ e, e.isMinute = false → f e = none) :
    r'.journal.entries.filterMap f = r.journal.entries.filterMap f := by
  obtain ⟨asides, recent, asides_aside⟩ := h.journal
  have silent : asides.reverse.filterMap f = [] := by
    rw [List.filterMap_eq_nil_iff]
    exact fun e member => aside e (asides_aside e (List.mem_reverse.1 member))
  simp [Journal.entries, recent, silent]

theorem events (h : Entrusted r r') : r'.journal.events = r.journal.events :=
  h.filterMap_eq fun e aside => by cases e <;> first | rfl | cases aside

theorem calls (h : Entrusted r r') : r'.journal.calls = r.journal.calls :=
  h.filterMap_eq fun e aside => by cases e <;> first | rfl | cases aside

end Entrusted

end Run

/-! ## Lawful listeners -/

namespace Listener

variable {E P L : Type} [Listener E P L]

/-- Whatever a listener is told, it keeps its name, and the run is as one that was entrusted to it. -/
def Lawful (E P L : Type) [Listener E P L] : Prop :=
  ∀ (event : Event) (l : L) (r : Run E P),
    Ensures (· = (l, r)) (hear event) (fun _ s => Named.name s.1 = Named.name l ∧ r.Entrusted s.2)
      fun f s => (Named.name s.1 = Named.name l ∧ r.Entrusted s.2) ∧ f ≠ .outOfFuel

theorem Lawful.tell (lawful : Lawful E P L) (event : Event) (l : L) (r : Run E P) :
    Named.name (tell event l r).listener = Named.name l ∧
      (r.record (.called (Named.name l) event)).Entrusted (tell event l r).run ∧
      (tell event l r).verdict ≠ .error .outOfFuel := by
  have answer := lawful event l (r.record (.called (Named.name l) event)) _ rfl
  unfold Listener.tell
  cases heard : hear event (l, r.record (.called (Named.name l) event)) with
  | ok _ s =>
    rw [heard] at answer
    exact ⟨answer.1, answer.2, by simp⟩
  | error f s =>
    rw [heard] at answer
    obtain ⟨⟨name, entrusted⟩, fuel⟩ := answer
    refine ⟨name, ?_, ?_⟩
    · apply entrusted.trans
      cases f <;> first | exact .refl _ | exact .record _ rfl
    · cases f <;> simp_all [Failure.raisedBy]

end Listener

/-! ## Trails with lawful listeners -/

namespace Search

variable {E P L : Type} [Engine E] [Checkable E P] [Listener E P L] {s t u : Search E P L} {o : Occurrence}
  {h : List (Occurrence × Search E P L)}

omit [Engine E] [Checkable E P] in
/-- The names of all who are told of events, in order. -/
def names (s : Search E P L) : List String :=
  s.hearers.map Named.name

/-- The entry that is made of an occurrence. -/
def minute? (s : Search E P L) : Occurrence → Option Entry
  | .announce event => some (.announced (s.bulletin event))
  | .call number event _ => some (.called (s.names.getD number "") event)
  | _ => none

omit [Engine E] [Checkable E P] in
theorem names_heard {number : Nat} {l : L} {s : Search E P L} {told : Listener.Told L E P}
    (there : s.hearers[number]? = some l) (same : Named.name told.listener = Named.name l) :
    (s.heard number told).names = s.names := by
  apply List.ext_getElem?
  intro i
  simp only [names, List.getElem?_map]
  by_cases here : i = number
  · subst here
    rw [getElem?_hearers_heard there, there]
    simp [same]
  · rw [getElem?_hearers_heard_of_ne there told here]

/-- A minute is made of each occurrence; else the run is as one that was entrusted to others. -/
theorem Does.entrusted (lawful : Listener.Lawful E P L) (h : Does o s t) :
    t.names = s.names ∧ ((s.minute? o).elim s.run s.run.record).Entrusted t.run := by
  cases h with
  | turn => exact ⟨rfl, .refl _⟩
  | forward => exact ⟨rfl, .stepForward _⟩
  | backtrack => exact ⟨rfl, .stepBack _⟩
  | restore snapshot => exact ⟨rfl, .stepTo snapshot _⟩
  | rechoose => exact ⟨rfl, .of_eq id rfl rfl⟩
  | check => exact ⟨rfl, .checkProperties _⟩
  | announce event => exact ⟨rfl, .refl _⟩
  | clear => exact ⟨rfl, .of_eq id rfl rfl⟩
  | chore chore => exact ⟨rfl, .of_chore chore⟩
  | @call _ number l event there =>
    obtain ⟨same, entrusted, -⟩ := lawful.tell event l s.run
    have name : s.names.getD number "" = Named.name l := by simp [names, there]
    refine ⟨names_heard there same, ?_⟩
    simpa only [minute?, Option.elim_some, name, run_heard] using entrusted

theorem Does.done (lawful : Listener.Lawful E P L) (h : Does o s t) (done : s.run.done = true) :
    t.run.done = true := by
  apply (h.entrusted lawful).2.done
  cases s.minute? o <;> exact done

/-- The journal tells of all announcements and calls, and nothing else was entered as such. -/
structure Minuted (s t : Search E P L) (l : List Occurrence) : Prop where
  events : t.run.journal.events = s.run.journal.events ++ Occurrence.announced l
  calls : t.run.journal.calls =
    s.run.journal.calls ++ (Occurrence.called l).map fun c => (s.names.getD c.1 "", c.2)

theorem minuted_of_trail (lawful : Listener.Lawful E P L) (trail : Trail Does s h t) :
    Minuted s t (happenings h) := by
  have both : t.names = s.names ∧ Minuted s t (happenings h) := by
    induction trail with
    | start => exact ⟨rfl, by simp [happenings], by simp [happenings]⟩
    | @next _ t u o _ last ih =>
      obtain ⟨names, minuted⟩ := ih
      obtain ⟨same, entrusted⟩ := last.entrusted lawful
      have events := entrusted.events
      have calls := entrusted.calls
      refine ⟨same.trans names, ?_, ?_⟩
      · rw [events, happenings_cons, Occurrence.announced_cons, ← List.append_assoc, ← minuted.events]
        cases o <;> simp [minute?, Occurrence.event?, Run.record, Entry.event?, bulletin]
      · rw [calls, happenings_cons, Occurrence.called_cons, List.map_append, ← List.append_assoc,
          ← minuted.calls]
        cases o <;> simp [minute?, Occurrence.call?, Run.record, Entry.call?, names]
  exact both.2

end Search

/-! ## Rules are lawful -/

section Rules

variable {E P : Type} [Engine E] [Property P]

/-- The run is entrusted to the operation, which does not fail as if a budget was spent. -/
def RunM.Trusty {α : Type} (x : RunM E P α) : Prop :=
  ∀ r : Run E P, Ensures (· = r) x (fun _ => r.Entrusted) fun f r' => r.Entrusted r' ∧ f ≠ .outOfFuel

namespace Action

omit [Engine E] [Property P]

theorem trusty_look (f : Run E P → Json) : RunM.Trusty (look f) := by
  rintro _ r rfl
  exact .refl r

theorem trusty_change {f : Run E P → Run E P} (h : ∀ r : Run E P, r.Entrusted (f r)) :
    RunM.Trusty (change f) := by
  rintro _ r rfl
  exact h r

theorem trusty_ask {f : Run E P → Bool × Run E P} (h : ∀ r : Run E P, r.Entrusted (f r).2) :
    RunM.Trusty (ask f) := by
  rintro _ r rfl
  exact h r

end Action

theorem Action.trusty_perform (action : Action P) : RunM.Trusty (action.perform (E := E)) := by
  have asked {α : Type} (f : Bool → α) : RunM.Trusty (do return f (← Run.isNew (E := E) (P := P))) := by
    rintro _ r rfl
    simp only [bind, EStateM.bind]
    cases answer : Run.isNew r with
    | ok answer r' => exact Run.Entrusted.isNew answer
    | error f r' =>
      have same : r' = r := by
        obtain ⟨_, _, _, passed, -⟩ | ⟨_, failed, -⟩ := Run.isNew_cases r
        · rw [passed] at answer
          cases answer
        · rw [failed] at answer
          cases answer
          rfl
      subst same
      refine ⟨Run.Entrusted.refl r', ?_⟩
      rintro rfl
      cases Run.isLapse_of_isNew answer
  cases action with
  | terminate => exact trusty_change fun r => ⟨fun _ => rfl, rfl, [.terminated], rfl, by simp [Entry.isMinute]⟩
  | isNew => exact asked _
  | isVisited => exact asked _
  | stateDepth state =>
    rintro _ r rfl
    simp only [perform, EStateM.get_bind_apply]
    cases known : r.depths.get state with
    | ok d => exact Run.Entrusted.refl r
    | error f =>
      refine ⟨Run.Entrusted.refl r, ?_⟩
      rintro rfl
      cases Run.isLapse_of_get known
  | hasMemory => exact trusty_ask fun r => .of_chore (.hasMemory r)
  | endsAtViolation => exact trusty_ask fun r => .of_chore (.endsAtViolation r)
  | raise p =>
    rintro _ r rfl
    let w : Watched P := { key := r.nextKey, property := p }
    have known : r.Entrusted { r with retired := r.retired ++ [w] } := .of_eq id rfl rfl
    exact known.trans (.violate w _)
  | engineForward => exact trusty_ask .stepForward
  | engineBacktrack => exact trusty_ask .stepBack
  | _ => first | exact trusty_look _ | exact trusty_change fun _ => .of_eq id rfl rfl

namespace RuleListener

theorem trusty_carryOut (name : String) (deed : Deed P) : RunM.Trusty (carryOut (E := E) name deed) := by
  cases deed with
  | fail reason =>
    rintro _ r rfl
    exact ⟨Run.Entrusted.refl r, by simp⟩
  | act word action =>
    intro r
    apply (Action.trusty_perform action r).bind
    exact fun answer => .modifying fun r' entrusted => entrusted.trans (.record r' rfl)

theorem entrusted_follow (name : String) (event : Event) (qs : List (Rule P)) (r : Run E P) :
    r.Entrusted (follow name event qs r).run ∧ (follow name event qs r).verdict ≠ .error .outOfFuel := by
  induction qs generalizing r with
  | nil => exact ⟨.refl r, by simp [follow]⟩
  | cons q qs ih =>
    simp only [follow]
    split
    · split
      · have carried := trusty_carryOut (E := E) name q.deed r r rfl
        cases result : carryOut (E := E) name q.deed r with
        | error f r' =>
          rw [result] at carried
          exact ⟨carried.1, by simpa using carried.2⟩
        | ok _ r' =>
          rw [result] at carried
          exact ⟨carried.trans (ih r').1, (ih r').2⟩
      · exact ih r
    · exact ih r

theorem lawful : Listener.Lawful E P (RuleListener P) := by
  rintro event l r _ rfl
  obtain ⟨r', remark, passes, fails⟩ := hear_cases event l r
  have remarked : r.Entrusted r' := by
    obtain rfl | ⟨j, rfl⟩ := remark
    · exact .refl r'
    · exact .record r rfl
  obtain ⟨followed, fuel⟩ := entrusted_follow l.name event l.rules r'
  cases verdict : (follow l.name event l.rules r').verdict with
  | ok u =>
    rw [passes u verdict]
    exact ⟨rfl, remarked.trans followed⟩
  | error f =>
    rw [fails f verdict]
    exact ⟨⟨rfl, remarked.trans followed⟩, fun spent => fuel (spent ▸ verdict)⟩

end RuleListener

end Rules

end Statewalk
