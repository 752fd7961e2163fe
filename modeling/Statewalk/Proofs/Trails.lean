import Statewalk.Proofs.Assurance

/-! # Trails

What a search does, one thing after another.  `Search.Does` says for each kind of thing what becomes of
the search, and a `Trail` leads from one search to another by such steps.  A trail tells every point that
a run passes through: listeners may do as they please in between, each call of one of them is a step.
-/

namespace Statewalk

/-- One thing that happens in a run. -/
inductive Occurrence where
  /-- An iteration begins. -/
  | turn
  /-- The engine is told to move. -/
  | move (move : Move)
  /-- The engine is told to choose afresh. -/
  | rechoose
  /-- The properties are checked. -/
  | check
  /-- An event is entered in the journal. -/
  | announce (event : Event)
  /-- The listener with this number is told of an event; the reporter has the number after the last. -/
  | call (number : Nat) (event : Event) (verdict : Except Failure Unit)
  /-- The search minds its books. -/
  | chore

namespace Occurrence

/-- An iteration begins. -/
def isTurn : Occurrence → Bool
  | .turn => true
  | _ => false

/-- The engine is told to step forward. -/
def isForward : Occurrence → Bool
  | .move .forward => true
  | _ => false

/-- The engine is told to step back or to return to a snapshot. -/
def isReturn : Occurrence → Bool
  | .move .backtrack => true
  | .move .restore => true
  | _ => false

/-- The engine is told to move. -/
def isMove (o : Occurrence) : Bool :=
  o.isForward || o.isReturn

/-- The event that is announced. -/
def event? : Occurrence → Option Event
  | .announce event => some event
  | _ => none

/-- Who is told, and of what. -/
def call? : Occurrence → Option (Nat × Event)
  | .call number event _ => some (number, event)
  | _ => none

/-- What the one who is told fails with. -/
def failure? : Occurrence → Option Failure
  | .call _ _ (.error f) => some f
  | _ => none

end Occurrence

/-- The steps lead from the first state to the last; the history has them with the states after them,
    the latest first. -/
inductive Trail {σ : Type} (does : Occurrence → σ → σ → Prop) (s : σ) : List (Occurrence × σ) → σ → Prop where
  | start : Trail does s [] s
  | next {h : List (Occurrence × σ)} {t u : σ} {o : Occurrence} :
      Trail does s h t → does o t u → Trail does s ((o, u) :: h) u

/-- The last point of a history that begins at a given one. -/
def latest {σ : Type} (s : σ) : List (Occurrence × σ) → σ
  | [] => s
  | x :: _ => x.2

namespace Trail

variable {σ : Type} {does : Occurrence → σ → σ → Prop} {s t u : σ} {h after before : List (Occurrence × σ)}
  {o : Occurrence}

theorem mono {does' : Occurrence → σ → σ → Prop} (trail : Trail does s h t)
    (imp : ∀ o s t, does o s t → does' o s t) : Trail does' s h t := by
  induction trail with
  | start => exact .start
  | next _ last ih => exact .next ih (imp _ _ _ last)

/-- A trail can be taken up at each of its points. -/
theorem split (trail : Trail does s (after ++ (o, u) :: before) t) :
    Trail does s ((o, u) :: before) u ∧ Trail does u after t := by
  induction after generalizing t with
  | nil =>
    cases trail with
    | next earlier last => exact ⟨.next earlier last, .start⟩
  | cons x after ih =>
    cases trail with
    | next earlier last =>
      obtain ⟨first, rest⟩ := ih earlier
      exact ⟨first, .next rest last⟩

theorem latest_eq (trail : Trail does s h t) : latest s h = t := by
  cases trail <;> rfl

theorem split_latest (trail : Trail does s (after ++ before) t) :
    Trail does s before (latest s before) ∧ Trail does (latest s before) after t := by
  cases before with
  | nil =>
    rw [List.append_nil] at trail
    exact ⟨.start, trail⟩
  | cons x before => exact trail.split

/-- The step that a trail makes at one of its points. -/
theorem step_at (trail : Trail does s (after ++ (o, u) :: before) t) :
    Trail does s before (latest s before) ∧ does o (latest s before) u := by
  cases trail.split.1 with
  | next earlier last =>
    rw [earlier.latest_eq]
    exact ⟨earlier, last⟩

/-- What every step keeps holds all along a trail. -/
theorem invariant {inv : σ → Prop} (trail : Trail does s h t) (kept : ∀ o s t, does o s t → inv s → inv t)
    (hs : inv s) : inv t ∧ ∀ x ∈ h, inv x.2 := by
  induction trail with
  | start => exact ⟨hs, List.forall_mem_nil _⟩
  | next _ last ih =>
    have here := kept _ _ _ last ih.1
    exact ⟨here, List.forall_mem_cons.2 ⟨here, ih.2⟩⟩

end Trail

/-! ## Histories -/

/-- What happened on a trail, the latest first. -/
def happenings {σ : Type} (h : List (Occurrence × σ)) : List Occurrence :=
  h.map Prod.fst

namespace Occurrence

/-- The events that were announced, in order. -/
def announced (l : List Occurrence) : List Event :=
  l.reverse.filterMap event?

/-- Who was told of what, in order. -/
def called (l : List Occurrence) : List (Nat × Event) :=
  l.reverse.filterMap call?

variable {l l' : List Occurrence} {o : Occurrence}

@[simp] theorem announced_nil : announced [] = [] := rfl

@[simp] theorem called_nil : called [] = [] := rfl

@[simp] theorem announced_append : announced (l ++ l') = announced l' ++ announced l := by
  simp [announced]

@[simp] theorem called_append : called (l ++ l') = called l' ++ called l := by
  simp [called]

@[simp] theorem announced_cons : announced (o :: l) = announced l ++ o.event?.toList := by
  cases event : o.event? <;> simp [announced, event]

@[simp] theorem called_cons : called (o :: l) = called l ++ o.call?.toList := by
  cases call : o.call? <;> simp [called, call]

end Occurrence

@[simp] theorem happenings_cons {σ : Type} (o : Occurrence) (s : σ) (h : List (Occurrence × σ)) :
    happenings ((o, s) :: h) = o :: happenings h := rfl

/-! ## Chores -/

/-- An entry that a search makes for itself. -/
def Entry.isChore : Entry → Bool
  | .unguarded => true
  | .launched _ => true
  | .memoryLow .. => true
  | .reclaimed _ => true
  | .expanding .. => true
  | .walked .. => true
  | _ => false

namespace Run

variable {E P : Type} {r r' r'' : Run E P}

/-- What does not change when a search minds its books, and how the rest may. -/
structure Chore (r r' : Run E P) : Prop where
  engine : r'.engine = r.engine
  config : r'.config = r.config
  atViolation : r'.atViolation = r.atViolation
  violations : r'.violations = r.violations
  retired : r'.retired = r.retired
  properties : r.config.continueOnViolation = false → r'.properties = r.properties
  done : r.done = true → r'.done = true
  journal : ∃ notes, r'.journal.recent = notes ++ r.journal.recent ∧ ∀ e ∈ notes, e.isChore = true

namespace Chore

/-- Nothing that counts was changed. -/
theorem of_eq (engine : r'.engine = r.engine) (config : r'.config = r.config)
    (atViolation : r'.atViolation = r.atViolation) (violations : r'.violations = r.violations)
    (retired : r'.retired = r.retired) (properties : r'.properties = r.properties)
    (done : r'.done = r.done) (journal : r'.journal = r.journal) : Chore r r' :=
  ⟨engine, config, atViolation, violations, retired, fun _ => properties, fun h => done.trans h,
    [], by rw [journal, List.nil_append], List.forall_mem_nil _⟩

theorem refl (r : Run E P) : Chore r r :=
  of_eq rfl rfl rfl rfl rfl rfl rfl rfl

theorem trans (h : Chore r r') (h' : Chore r' r'') : Chore r r'' where
  engine := h'.engine.trans h.engine
  config := h'.config.trans h.config
  atViolation := h'.atViolation.trans h.atViolation
  violations := h'.violations.trans h.violations
  retired := h'.retired.trans h.retired
  properties single := (h'.properties (h.config ▸ single)).trans (h.properties single)
  done done := h'.done (h.done done)
  journal := Journal.added_trans h.journal h'.journal

theorem record {e : Entry} (r : Run E P) (chore : e.isChore = true) : Chore r (r.record e) where
  engine := rfl
  config := rfl
  atViolation := rfl
  violations := rfl
  retired := rfl
  properties _ := rfl
  done := id
  journal := ⟨[e], rfl, by simpa using chore⟩

theorem stop (r : Run E P) : Chore r { r with done := true } where
  engine := rfl
  config := rfl
  atViolation := rfl
  violations := rfl
  retired := rfl
  properties _ := rfl
  done _ := rfl
  journal := ⟨[], rfl, List.forall_mem_nil _⟩

theorem hasMemory (r : Run E P) : Chore r r.hasMemory.2 :=
  kept_hasMemory (J := Chore r) (fun _ _ h => h.trans (of_eq rfl rfl rfl rfl rfl rfl rfl rfl))
    (fun r' _ _ h => h.trans (record r' rfl)) (fun r' _ h => h.trans (record r' rfl)) (refl r)

theorem endsAtViolation (r : Run E P) : Chore r r.endsAtViolation.2 := by
  unfold Run.endsAtViolation
  split
  · split
    · exact refl r
    · exact of_eq rfl rfl rfl rfl rfl rfl rfl rfl
  · exact refl r

/-- Properties are made to forget only if the search goes on after violations. -/
theorem resetProperties [Property P] (r : Run E P) (continues : r.config.continueOnViolation = true) :
    Chore r r.resetProperties where
  engine := rfl
  config := rfl
  atViolation := rfl
  violations := rfl
  retired := rfl
  properties single := by rw [continues] at single; cases single
  done := id
  journal := ⟨[], rfl, List.forall_mem_nil _⟩

end Chore

end Run

/-! ## Lapses -/

/-- A failure of the search itself, for want of a depth, of snapshots or of room to count. -/
def Failure.isLapse : Failure → Bool
  | .unvisited _ => true
  | .unsupported _ => true
  | .fault _ => true
  | _ => false

namespace Run

variable {E P : Type} [Engine E] {r r' : Run E P} {f : Failure}

theorem isLapse_of_recordDepth (h : r.recordDepth = .error f) : f.isLapse = true := by
  unfold recordDepth at h
  cases set : r.depths.set (Engine.stateId r.engine) r.depth with
  | ok depths =>
    rw [set] at h
    cases h
  | error fault =>
    rw [set] at h
    cases h
    rfl

theorem isLapse_of_get {table : DepthTable} {state : StateId} (h : table.get state = .error f) :
    f.isLapse = true := by
  unfold DepthTable.get at h
  split at h
  · cases h
  · cases h
    rfl

theorem isLapse_of_judge (h : r.judge = .error f) : f.isLapse = true := by
  have recorded {failure : Failure}
      (h : r.recordDepth.map (fun depths => (true, depths)) = .error failure) : failure.isLapse = true := by
    cases set : r.recordDepth with
    | ok depths => simp [set, Except.map] at h
    | error g =>
      simp only [set, Except.map, Except.error.injEq] at h
      exact h ▸ isLapse_of_recordDepth set
  unfold judge at h
  split at h
  · split at h
    · exact recorded h
    · split at h
      · rename_i unknown
        cases h
        exact isLapse_of_get unknown
      · split at h
        · exact recorded h
        · cases h
  · cases h

theorem isLapse_of_isNew (h : isNew r = .error f r') : f.isLapse = true := by
  simp only [isNew, EStateM.get_bind_apply] at h
  by_cases matching : r.matching = true
  · rw [if_pos matching] at h
    cases cached : r.cachedAnswer? with
    | some answer =>
      rw [cached] at h
      cases h
    | none =>
      rw [cached] at h
      cases judged : r.judge with
      | ok result =>
        rw [judged] at h
        cases h
      | error g =>
        rw [judged] at h
        cases h
        exact isLapse_of_judge judged
  · rw [if_neg matching] at h
    cases h

end Run

/-! ## What a search does -/

/-- The first property that does not hold is recorded, as it is after the check. -/
theorem Run.checkProperties_outcome {E P : Type} [Engine E] [Checkable E P] (r : Run E P) :
    (∃ properties, r.checkProperties = (false, { r with properties })) ∨
      ∃ properties, ∃ w ∈ properties, r.checkProperties = (true, ({ r with properties } : Run E P).violate w) := by
  have among (ws : List (Watched P)) : ∀ w ∈ (checkUntil r ws).2, w ∈ (checkUntil r ws).1 := by
    induction ws with
    | nil => simp [checkUntil]
    | cons w ws ih =>
      simp only [checkUntil]
      split
      · exact fun w' member => List.mem_cons_of_mem _ (ih w' member)
      · simp
  simp only [checkProperties]
  cases violated : (checkUntil r r.properties).2 with
  | none => exact .inl ⟨_, rfl⟩
  | some w => exact .inr ⟨_, w, among r.properties w violated, rfl⟩

namespace Search

variable {E P L : Type}

/-- All who are told of events, in order. -/
def hearers (s : Search E P L) : List L :=
  s.listeners ++ s.reporter.toList

/-- The search after the one with this number was told of something. -/
def heard (number : Nat) (told : Listener.Told L E P) (s : Search E P L) : Search E P L :=
  if number < s.listeners.length then
    { s with listeners := s.listeners.set number told.listener, run := told.run }
  else { s with reporter := some told.listener, run := told.run }

@[simp] theorem run_heard (number : Nat) (told : Listener.Told L E P) (s : Search E P L) :
    (s.heard number told).run = told.run := by
  unfold heard
  split <;> rfl

theorem length_hearers_heard {number : Nat} {l : L} {s : Search E P L} (there : s.hearers[number]? = some l)
    (told : Listener.Told L E P) : (s.heard number told).hearers.length = s.hearers.length := by
  unfold heard
  split
  · simp [hearers]
  · -- Only a reporter comes after the listeners.
    rename_i last
    rw [hearers, List.getElem?_append_right (by omega)] at there
    cases reporter : s.reporter with
    | none => simp [reporter] at there
    | some l' => simp [hearers, reporter]

/-- The one who was told is the one with the number. -/
theorem getElem?_hearers_heard {number : Nat} {l : L} {s : Search E P L}
    (there : s.hearers[number]? = some l) (told : Listener.Told L E P) :
    (s.heard number told).hearers[number]? = some told.listener := by
  unfold heard
  split
  · rename_i inside
    simp [hearers, List.getElem?_append_left, inside]
  · rename_i last
    rw [hearers, List.getElem?_append_right (by omega)] at there
    cases reporter : s.reporter with
    | none => simp [reporter] at there
    | some l' =>
      have number_eq : number - s.listeners.length = 0 := by
        simp only [reporter, Option.toList_some, List.getElem?_singleton] at there
        split at there
        · assumption
        · cases there
      simp only [hearers]
      rw [List.getElem?_append_right (by omega), number_eq]
      rfl

/-- Others stay as they are. -/
theorem getElem?_hearers_heard_of_ne {number i : Nat} {l : L} {s : Search E P L}
    (there : s.hearers[number]? = some l) (told : Listener.Told L E P) (other : i ≠ number) :
    (s.heard number told).hearers[i]? = s.hearers[i]? := by
  unfold heard
  split
  · simp only [hearers, List.getElem?_append, List.length_set]
    rw [List.getElem?_set_ne (Ne.symm other)]
  · rename_i last
    have bound := (List.getElem?_eq_some_iff.1 there).1
    simp only [hearers, List.length_append] at bound ⊢
    cases reporter : s.reporter with
    | none =>
      rw [reporter, Option.toList_none, List.length_nil] at bound
      omega
    | some l' =>
      rw [reporter, Option.toList_some, List.length_singleton] at bound
      have number_eq : number = s.listeners.length := by omega
      simp only [Option.toList_some, List.getElem?_append]
      split
      · rfl
      · rw [List.getElem?_singleton, List.getElem?_singleton, if_neg (by omega), if_neg (by omega)]

variable [Engine E] [Checkable E P] [Listener E P L]

/-- The search does something, and becomes the second one by it. -/
inductive Does : Occurrence → Search E P L → Search E P L → Prop where
  | turn {s : Search E P L} : s.run.done = false → Does .turn s s
  | forward (s : Search E P L) : Does (.move .forward) s { s with run := s.run.stepForward.2 }
  | backtrack (s : Search E P L) : Does (.move .backtrack) s { s with run := s.run.stepBack.2 }
  | restore (snapshot : Snapshot (Engine.Saved E)) (s : Search E P L) :
      Does (.move .restore) s { s with run := (s.run.stepTo snapshot).2 }
  | rechoose (s : Search E P L) :
      Does .rechoose s { s with run := { s.run with engine := Engine.resetChoice s.run.engine } }
  | check (s : Search E P L) : Does .check s { s with run := s.run.checkProperties.2 }
  | announce (event : Event) (s : Search E P L) :
      Does (.announce event) s { s with run := s.run.record (.announced (s.bulletin event)) }
  | call {s : Search E P L} {number : Nat} {l : L} (event : Event) : s.hearers[number]? = some l →
      Does (.call number event (Listener.tell event l s.run).verdict) s
        (s.heard number (Listener.tell event l s.run))
  /-- A step is about to be made: the last one is over. -/
  | clear (s : Search E P L) :
      Does .chore s { s with run := { s.run with atViolation := false, lastQuery := none } }
  | chore {s : Search E P L} {r : Run E P} : s.run.Chore r → Does .chore s { s with run := r }

omit [Engine E] [Checkable E P] in
/-- An event is broadcast to one after the other: what holds of those told so far holds of all in the
    end, unless one of them fails. -/
theorem ensures_broadcast_of_calls {event : Event} {I : Nat → Search E P L → Prop}
    {fail : Failure → Search E P L → Prop}
    (call : ∀ number s l, I number s → s.hearers[number]? = some l →
      ((Listener.tell event l s.run).verdict = .ok () →
        I (number + 1) (s.heard number (Listener.tell event l s.run))) ∧
      ∀ f, (Listener.tell event l s.run).verdict = .error f →
        fail f (s.heard number (Listener.tell event l s.run))) :
    Ensures (I 0) (broadcast event) (fun _ t => I t.hearers.length t) fail := by
  have all (s : Search E P L) (told rest : List L) (r : Run E P)
      (h : I told.length { s with listeners := told ++ rest, run := r }) :
      ((Listener.tellAll event rest r).verdict = .ok () →
        (Listener.tellAll event rest r).listener.length = rest.length ∧
        I (told.length + rest.length) { s with
          listeners := told ++ (Listener.tellAll event rest r).listener
          run := (Listener.tellAll event rest r).run }) ∧
      ∀ f, (Listener.tellAll event rest r).verdict = .error f →
        fail f { s with
          listeners := told ++ (Listener.tellAll event rest r).listener
          run := (Listener.tellAll event rest r).run } := by
    -- By induction on those still to be told; the one at the head has the number of those told.
    induction rest generalizing told r with
    | nil => exact ⟨fun _ => ⟨rfl, h⟩, by simp [Listener.tellAll]⟩
    | cons l rest ih =>
      have there : ({ s with listeners := told ++ l :: rest, run := r } : Search E P L).hearers[told.length]?
          = some l := by simp [hearers]
      have seated : heard told.length (Listener.tell event l r) { s with listeners := told ++ l :: rest, run := r } =
          { s with listeners := told ++ (Listener.tell event l r).listener :: rest
                   run := (Listener.tell event l r).run } := by
        simp [heard]
      have here := call told.length _ l h there
      simp only [seated] at here
      simp only [Listener.tellAll]
      cases verdict : (Listener.tell event l r).verdict with
      | error f =>
        refine ⟨by simp, ?_⟩
        rintro f' ⟨⟩
        exact here.2 f verdict
      | ok _ =>
        have next := ih (told ++ [(Listener.tell event l r).listener]) _ (by simpa using here.1 verdict)
        simp only [List.append_assoc, List.singleton_append, List.length_append, List.length_singleton,
          Nat.add_assoc, Nat.add_comm 1] at next
        refine ⟨fun passed => ?_, next.2⟩
        obtain ⟨length, reached⟩ := next.1 passed
        exact ⟨by simp [length], reached⟩
  rintro ⟨run, listeners, reporter⟩ h
  have told := all ⟨run, listeners, reporter⟩ [] listeners run h
  simp only [List.nil_append, List.length_nil, Nat.zero_add] at told
  simp only [broadcast]
  cases verdict : (Listener.tellAll event listeners run).verdict with
  | error f => exact told.2 f verdict
  | ok _ =>
    obtain ⟨length, reached⟩ := told.1 verdict
    cases reporter with
    | none =>
      simp only [hearers, Option.toList_none, List.append_nil, length]
      exact reached
    | some l =>
      have last := call listeners.length _ l reached (by simp [hearers, length])
      simp only [heard, length, Nat.lt_irrefl, if_false] at last
      simp only
      cases verdict' : (Listener.tell event l (Listener.tellAll event listeners run).run).verdict with
      | error f => exact last.2 f verdict'
      | ok _ =>
        simp only [hearers, Option.toList_some, List.length_append, List.length_singleton, length]
        exact last.1 verdict'

end Search

end Statewalk
