import Statewalk.Proofs.Conduct
import Statewalk.Proofs.FrozenViolations

/-! # The records of violations

Records of violations are only ever added, at the end, and numbered in order.  A record made while the search
goes on after violations is detached: what it tells does not change, whatever becomes of the property, of the
path and of the threads it was made from, and whatever is done to the search by its strategies, its listeners
or from outside.
-/

namespace Statewalk

/-- The record holds copies of what it rests on. -/
def Evidence.isDetached {P : Type} : Evidence P → Bool
  | .detached .. => true
  | .live _ => false

/-- The first record has the number one, and so on. -/
def Violation.InOrder {P : Type} (vs : List (Violation P)) : Prop :=
  ∀ k v, vs[k]? = some v → v.id = k + 1

namespace Run

variable {E P : Type} {r r' r'' : Run E P} {v : Violation P}

/-! ## What is done to the records -/

/-- The records of the first run are those that the second begins with.  Those after them are numbered on,
    and hold copies if the search goes on after violations. -/
def Appends (r r' : Run E P) : Prop :=
  ∃ new, r'.violations = r.violations ++ new ∧
    (∀ k v, new[k]? = some v → v.id = r.violations.length + k + 1) ∧
    (r.config.continueOnViolation = true → ∀ v ∈ new, v.evidence.isDetached = true)

namespace Appends

theorem of_eq (violations : r'.violations = r.violations) : Appends r r' :=
  ⟨[], by rw [violations, List.append_nil], by simp, by simp⟩

/-- Further records are numbered on from there. -/
theorem trans (h : Appends r r') (h' : Appends r' r'')
    (mode : r'.config.continueOnViolation = r.config.continueOnViolation) : Appends r r'' := by
  obtain ⟨new, violations, ids, detached⟩ := h
  obtain ⟨more, violations', ids', detached'⟩ := h'
  refine ⟨new ++ more, by rw [violations', violations, List.append_assoc], ?_, ?_⟩
  · intro k v there
    rw [List.getElem?_append] at there
    split at there
    · exact ids k v there
    · have id := ids' _ v there
      rw [violations, List.length_append] at id
      omega
  · intro continues
    exact List.forall_mem_append.2 ⟨detached continues, detached' (mode ▸ continues)⟩

theorem violate [Engine E] [Property P] (w : Watched P) (r : Run E P) : Appends r (r.violate w) := by
  refine ⟨[{ id := r.violations.length + 1, evidence := r.evidence w }], rfl, ?_, ?_⟩
  · intro k v there
    simp only [List.getElem?_singleton] at there
    split at there
    · cases there
      simp_all
    · cases there
  · intro continues
    simp [Run.evidence, continues, Evidence.isDetached]

theorem inOrder (h : Appends r r') (order : Violation.InOrder r.violations) : Violation.InOrder r'.violations := by
  obtain ⟨new, violations, ids, -⟩ := h
  intro k v there
  rw [violations, List.getElem?_append] at there
  split at there
  · exact order k v there
  · have id := ids _ v there
    omega

theorem isPrefix (h : Appends r r') : r.violations <+: r'.violations := by
  obtain ⟨new, violations, -⟩ := h
  exact ⟨new, violations.symm⟩

/-- What is beyond the old records was made with copies if the search went on then. -/
theorem detached (h : Appends r r') (continues : r.config.continueOnViolation = true)
    (new : v ∈ r'.violations.drop r.violations.length) : v.evidence.isDetached = true := by
  obtain ⟨added, violations, -, detached⟩ := h
  rw [violations, List.drop_left] at new
  exact detached continues v new

end Appends

section Filing

variable [Engine E] [Property P]

/-- Anything may have been done to the run but to its records, which were added to by recording violations,
    and it is not another question than before whether the search goes on after violations. -/
inductive Files : Run E P → Run E P → Prop where
  | refl (r : Run E P) : Files r r
  | change {r r' r'' : Run E P} : Files r r' → r''.violations = r'.violations →
      r''.config.continueOnViolation = r'.config.continueOnViolation → Files r r''
  | violate {r r' : Run E P} (w : Watched P) : Files r r' → Files r (r'.violate w)

namespace Files

theorem of_eq (violations : r'.violations = r.violations)
    (mode : r'.config.continueOnViolation = r.config.continueOnViolation) : Files r r' :=
  .change (.refl r) violations mode

theorem trans (h : Files r r') (h' : Files r' r'') : Files r r'' := by
  induction h' with
  | refl => exact h
  | change _ violations mode ih => exact .change ih violations mode
  | violate w _ ih => exact .violate w ih

theorem of_chore (chore : r.Chore r') : Files r r' :=
  of_eq chore.violations (by rw [chore.config])

theorem appends (h : Files r r') :
    Appends r r' ∧ r'.config.continueOnViolation = r.config.continueOnViolation := by
  induction h with
  | refl => exact ⟨.of_eq rfl, rfl⟩
  | change _ violations mode ih => exact ⟨ih.1.trans (.of_eq violations) ih.2, mode.trans ih.2⟩
  | violate w _ ih => exact ⟨ih.1.trans (.violate w _) ih.2, ih.2⟩

theorem licence : Licence (Files (E := E) (P := P)) where
  refl := .refl
  trans _ _ _ := trans
  record _ _ := of_eq rfl rfl

theorem stepForward (r : Run E P) : Files r r.stepForward.2 := by
  rw [Run.stepForward_eq]
  exact of_eq rfl rfl

end Files

end Filing

end Run

/-! ## Listeners with rules -/

section Rules

variable {E P : Type} [Engine E] [Property P]

/-- Whatever action is performed, records are only added, and by recording violations. -/
theorem Action.files_perform (action : Action P) : RunM.Changes Run.Files (action.perform (E := E)) := by
  cases action with
  | isNew | isVisited => exact changes_isNew (fun _ _ _ => .of_eq rfl rfl) _
  | stateDepth state => exact changes_stateDepth Run.Files.licence state
  | hasMemory => exact changes_ask fun r => .of_chore (.hasMemory r)
  | endsAtViolation => exact changes_ask fun r => .of_chore (.endsAtViolation r)
  | raise p =>
    rintro _ r rfl
    let w : Watched P := { key := r.nextKey, property := p }
    have known : r.Files { r with retired := r.retired ++ [w] } := .of_eq rfl rfl
    exact .violate w known
  | engineForward => exact changes_ask .stepForward
  | _ => first | exact changes_look Run.Files.licence _ | exact changes_change fun _ => .of_eq rfl rfl

theorem RuleListener.conducts_files :
    Listener.Conducts (E := E) (P := P) Run.Files fun _ : RuleListener P => True := by
  intro event l r _
  have obeys : l.Obeys fun _ => True := by
    intro q _
    cases q.deed <;> trivial
  have conducts := conducts Run.Files.licence (fun action _ => Action.files_perform (E := E) action) event l r obeys
  exact (conducts.imp fun _ _ h => ⟨trivial, h.2⟩).imp_fail fun _ _ h => ⟨trivial, h.2⟩

end Rules

/-! ## What befalls a search -/

namespace Search

variable {E P L : Type} [Engine E] [Checkable E P] [Listener E P L] {s t u : Search E P L} {o : Occurrence}

/-- The search does something itself, is given another configuration, or finds that its engine or its
    properties were changed under its hands. -/
inductive Befalls : Occurrence → Search E P L → Search E P L → Prop where
  | does {o : Occurrence} {s t : Search E P L} : Does o s t → Befalls o s t
  | configure (c : Config) (s : Search E P L) : Befalls .chore s { s with run := s.run.configure c }
  | engine (e : E) (s : Search E P L) : Befalls .chore s { s with run := { s.run with engine := e } }
  | properties (watched retired : List (Watched P)) (s : Search E P L) :
      Befalls .chore s { s with run := { s.run with properties := watched, retired := retired } }

theorem Befalls.appends (conducts : Listener.Conducts (E := E) (P := P) Run.Files fun _ : L => True)
    (h : Befalls o s t) : s.run.Appends t.run := by
  cases h with
  | configure => exact .of_eq rfl
  | engine => exact .of_eq rfl
  | properties => exact .of_eq rfl
  | does does =>
    cases does with
    | turn => exact .of_eq rfl
    | forward => exact (Run.Files.stepForward _).appends.1
    | backtrack => exact .of_eq rfl
    | restore => exact .of_eq rfl
    | rechoose => exact .of_eq rfl
    | announce => exact .of_eq rfl
    | clear => exact .of_eq rfl
    | chore chore => exact .of_eq chore.violations
    | check =>
      obtain ⟨properties, checked⟩ | ⟨properties, w, -, checked⟩ := Run.checkProperties_outcome s.run
      · rw [checked]
        exact .of_eq rfl
      · rw [checked]
        exact Run.Appends.trans (.of_eq rfl) (.violate w _) rfl
    | call event there =>
      rw [run_heard]
      exact (conducts.tell Run.Files.licence event s.run trivial).2.appends.1

/-! ## Operations -/

/-- The operation leads from the first search to the second, whether it succeeds or fails. -/
def Yields {α : Type} (x : SearchM E P L α) (s t : Search E P L) : Prop :=
  (∃ a, x s = .ok a t) ∨ ∃ f, x s = .error f t

/-- One operation on a search from outside. -/
inductive Handling (s t : Search E P L) : Prop where
  | forward : Yields Search.forward s t → Handling s t
  | backtrack : Yields Search.backtrack s t → Handling s t
  | restore (snapshot : Snapshot (Engine.Saved E)) (strategy : String) :
      Yields (Search.restore snapshot strategy) s t → Handling s t
  | check : Yields (update Run.checkProperties) s t → Handling s t
  | resetProperties : Yields (change Run.resetProperties) s t → Handling s t
  | reconfigure (c : Config) : Yields (Search.reconfigure c) s t → Handling s t
  | run {H : Type} [Heuristic H E P] (a : Strategy H E) (budget : Nat) : Yields (a.run budget) s t → Handling s t
  /-- The engine is made to step, or its path or its threads are changed. -/
  | engine (f : E → E) : Yields (change fun r => { r with engine := f r.engine }) s t → Handling s t
  /-- The properties are changed by those who own them. -/
  | properties (f : List (Watched P) × List (Watched P) → List (Watched P) × List (Watched P)) :
      Yields (change fun r => { r with
        properties := (f (r.properties, r.retired)).1, retired := (f (r.properties, r.retired)).2 }) s t →
      Handling s t

/-- The second search is what becomes of the first one by operations from outside, after each of which the
    search is listed, the latest first. -/
inductive Handled (s : Search E P L) : List (Search E P L) → Search E P L → Prop where
  | start : Handled s [] s
  | next {ps : List (Search E P L)} {t u : Search E P L} : Handled s ps t → Handling t u → Handled s (u :: ps) u

section Trails

variable {h : List (Occurrence × Search E P L)}

omit [Engine E] [Checkable E P] [Listener E P L] in
theorem Yields.kept {α : Type} {x : SearchM E P L α} {K : Search E P L → Prop} (yields : Yields x s t)
    (ensures : Ensures K x (fun _ => K) fun _ => K) (hs : K s) : K t := by
  have after := ensures s hs
  obtain ⟨a, ran⟩ | ⟨f, ran⟩ := yields <;> rwa [ran] at after

/-- Every operation from outside is a trail. -/
theorem Handling.trail (handling : Handling t u) (trail : Trail Befalls s h t) :
    ∃ h', Trail Befalls s (h' ++ h) u := by
  -- To be at the end of some continuation of the trail is kept by all that can happen in the operation.
  let K (v : Search E P L) : Prop := ∃ h', Trail Befalls s (h' ++ h) v
  have step {o : Occurrence} {v w : Search E P L} (befalls : Befalls o v w) : K v → K w := by
    rintro ⟨h', trail⟩
    exact ⟨(o, w) :: h', .next trail befalls⟩
  have d : Discipline (fun _ => K) K fun _ => K :=
    .of_kept (fun _ _ _ does => step (.does does))
      (fun _ event _ _ _ hv there _ => step (.does (.call event there)) hv) (fun _ _ hv _ => hv)
  have here : K t := ⟨[], trail⟩
  cases handling with
  | forward yields => exact yields.kept (d.forward true) here
  | backtrack yields => exact yields.kept (d.backtrack true) here
  | restore snapshot strategy yields => exact yields.kept (d.restore true snapshot strategy) here
  | check yields => exact yields.kept (d.check true true) here
  | resetProperties yields => exact yields.kept (fun v hv => step (.properties _ _ v) hv) here
  | engine f yields => exact yields.kept (fun v hv => step (.engine _ v) hv) here
  | properties f yields => exact yields.kept (fun v hv => step (.properties _ _ v) hv) here
  | run a budget yields =>
    exact yields.kept ((a.ensures_run d (fun _ hv => hv) budget).imp fun _ _ hv => hv.1) here
  | reconfigure c yields =>
    refine yields.kept ?_ here
    unfold Search.reconfigure
    cases c.validate with
    | error err => exact .throw fun _ hv => hv
    | ok _ => exact .modifying fun v hv => step (.configure c v) hv

/-- So is a sequence of them, and it passes through all that was there in between. -/
theorem Handled.trail {ps : List (Search E P L)} (handled : Handled s ps t) :
    ∃ h, Trail Befalls s h t ∧ ps.Sublist (h.map (·.2)) := by
  induction handled with
  | start => exact ⟨[], .start, .refl _⟩
  | @next ps t u _ handling ih =>
    obtain ⟨h, trail, points⟩ := ih
    obtain ⟨h', whole⟩ := handling.trail trail
    refine ⟨(.chore, u) :: (h' ++ h), .next whole (.does (.chore (.refl u.run))), ?_⟩
    rw [List.map_cons, List.map_append]
    exact (points.trans (List.sublist_append_right _ _)).cons_cons u

variable (conducts : Listener.Conducts (E := E) (P := P) Run.Files fun _ : L => True)

include conducts

theorem inOrder_of_trail (trail : Trail Befalls s h t) (order : Violation.InOrder s.run.violations) :
    Violation.InOrder t.run.violations :=
  (trail.invariant (fun _ _ _ befalls => (befalls.appends conducts).inOrder) order).1

theorem isPrefix_of_trail (trail : Trail Befalls s h t) : s.run.violations <+: t.run.violations := by
  induction trail with
  | start => exact List.prefix_rfl
  | next _ last ih => exact ih.trans (last.appends conducts).isPrefix

end Trails

end Search

/-! ## What a detached record tells -/

theorem Run.summary_of_isDetached {E P : Type} [Engine E] [Property P] {v : Violation P} (r r' : Run E P)
    (detached : v.evidence.isDetached = true) : r'.summary v = r.summary v := by
  unfold Run.summary
  cases evidence : v.evidence with
  | detached => rfl
  | live => rw [evidence] at detached; cases detached

section Records

variable {E P L : Type} [Engine E] [Checkable E P] [Listener E P L] {s t : Search E P L}

open Search

/-- What is true of the records along a history that begins at a search. -/
structure KeepsRecords (s : Search E P L) (h : List (Occurrence × Search E P L)) : Prop where
  /-- At every point the records are numbered in order. -/
  ordered : ∀ after before, h = after ++ before → Violation.InOrder (latest s before).run.violations
  /-- From one point to another, records are only added, at the end. -/
  grows : ∀ after between before, h = after ++ (between ++ before) →
    (latest s before).run.violations <+: (latest s (between ++ before)).run.violations
  /-- A record that a step made while the search was to go on after violations is there at all later points,
      and tells the same. -/
  detached : ∀ after before o u, h = after ++ (o, u) :: before →
    (latest s before).run.config.continueOnViolation = true →
    ∀ v ∈ u.run.violations.drop (latest s before).run.violations.length,
      ∀ later earlier, after = later ++ earlier →
        v ∈ (latest u earlier).run.violations ∧ (latest u earlier).run.summary v = u.run.summary v
  /-- What it tells, if a check made it, is what there was to tell then. -/
  found : ∀ after before u, h = after ++ (.check, u) :: before →
    (latest s before).run.config.continueOnViolation = true →
    ∀ v ∈ u.run.violations.drop (latest s before).run.violations.length,
      ∃ w ∈ u.run.properties, u.run.summary v =
        { id := v.id
          property := Named.name w.property
          message := Property.message w.property
          path := Engine.path u.run.engine
          threads := Engine.threads u.run.engine }

/-- The record of a check tells the property as it is after the check, and the path and the threads. -/
theorem Run.summary_of_checkProperties {r : Run E P} {v : Violation P} (continues : r.config.continueOnViolation = true)
    (new : v ∈ r.checkProperties.2.violations.drop r.violations.length) :
    ∃ w ∈ r.checkProperties.2.properties, r.checkProperties.2.summary v =
      { id := v.id
        property := Named.name w.property
        message := Property.message w.property
        path := Engine.path r.checkProperties.2.engine
        threads := Engine.threads r.checkProperties.2.engine } := by
  obtain ⟨properties, checked⟩ | ⟨properties, w, member, checked⟩ := Run.checkProperties_outcome r
  · rw [checked] at new
    simp at new
  · rw [checked] at new ⊢
    simp only [Run.violate, Run.record, List.drop_left, List.mem_singleton] at new
    subst new
    exact ⟨w, member, by simp [Run.summary, Run.evidence, continues, Run.violate, Run.record]⟩

omit [Listener E P L] in
/-- A step forward adds at most one record. -/
theorem Search.length_violations_forward {advanced : Bool} (stepped : Search.forward s = .ok advanced t) :
    t.run.violations.length ≤ s.run.violations.length + 1 := by
  have checked (r : Run E P) : r.checkProperties.2.violations.length ≤ r.violations.length + 1 := by
    obtain ⟨properties, checked⟩ | ⟨properties, w, -, checked⟩ := Run.checkProperties_outcome r
    · rw [checked]
      exact Nat.le_succ _
    · rw [checked]
      simp [Run.violate, Run.record]
  let cleared : Run E P := { s.run with atViolation := false, lastQuery := none }
  have moved : cleared.stepForward.2.violations = s.run.violations := by rw [Run.stepForward_eq]
  have result : Search.forward s =
      .ok cleared.stepForward.1 { s with run := cleared.stepForward.2.checkProperties.2 } := rfl
  rw [result] at stepped
  cases stepped
  rw [← moved]
  exact checked cleared.stepForward.2

theorem keepsRecords_of_trail (conducts : Listener.Conducts (E := E) (P := P) Run.Files fun _ : L => True)
    {h : List (Occurrence × Search E P L)} (trail : Trail Befalls s h t) (fresh : s.run.violations = []) :
    KeepsRecords s h where
  ordered := by
    rintro after before rfl
    exact inOrder_of_trail conducts trail.split_latest.1 (by simp [Violation.InOrder, fresh])
  grows := by
    rintro after between before rfl
    exact isPrefix_of_trail conducts trail.split_latest.1.split_latest.2
  detached := by
    rintro after before o u rfl continues v new later earlier rfl
    -- The record is among those that the step added, hence detached, and a detached record tells what it holds.
    have appends := trail.step_at.2.appends conducts
    have there := (isPrefix_of_trail conducts trail.split.2.split_latest.1).subset (List.mem_of_mem_drop new)
    exact ⟨there, Run.summary_of_isDetached _ _ (appends.detached continues new)⟩
  found := by
    rintro after before u rfl continues v new
    cases trail.step_at.2 with
    | does does =>
      cases does
      exact Run.summary_of_checkProperties continues new

/-- Records of violations are append-only: whatever operations are made on a search that has none, at every
    point of them all the records are those of any earlier point and others after them, and the first has the
    number one and so on.  A step forward adds at most one.  What a record tells that was made while the search
    was to go on after violations is what it told at first, at every later point. -/
theorem records_append_only_and_detached
    (conducts : Listener.Conducts (E := E) (P := P) Run.Files fun _ : L => True) {ps : List (Search E P L)}
    (fresh : s.run.violations = []) (handled : Handled s ps t) :
    (∃ h, Trail Befalls s h t ∧ ps.Sublist (h.map (·.2)) ∧ KeepsRecords s h) ∧
      ∀ (p q : Search E P L) (advanced : Bool), Search.forward p = .ok advanced q →
        q.run.violations.length ≤ p.run.violations.length + 1 := by
  obtain ⟨h, trail, points⟩ := handled.trail
  refine ⟨⟨h, trail, points, keepsRecords_of_trail conducts trail fresh⟩, ?_⟩
  exact fun p q advanced stepped => length_violations_forward stepped

end Records

/-- Violations are recorded in a run that goes on after them.  Then the mode is changed, the engine exchanged
    behind the back of the search, the properties are made to forget, and the search steps on. -/
theorem tangle_records_append_only_and_detached : ∃ e s, GraphEngine.ofGraph .tangle = .ok e ∧
    Search.ofEngine e { continueOnViolation := true } = .ok s ∧
    let t : Search GraphEngine Subject (RuleListener Subject) :=
      (s.addProperty (.forbidden { states := [1] })).addListener inquirer
    let strategy : Strategy DeepestFirst GraphEngine := .depthFirst
    ∃ o u ps w, strategy.run 20 t = .ok o u ∧ u.run.violations.length = 2 ∧ ps.length = 4 ∧
      Search.Handled t (ps ++ [u]) w ∧
      (∃ h, Trail Search.Befalls t h w ∧ (ps ++ [u]).Sublist (h.map (·.2)) ∧ KeepsRecords t h) ∧
      ∀ (p q : Search GraphEngine Subject (RuleListener Subject)) (advanced : Bool),
        Search.forward p = .ok advanced q → q.run.violations.length ≤ p.run.violations.length + 1 := by
  obtain ⟨e, made⟩ : ∃ e, GraphEngine.ofGraph .tangle = .ok e := ⟨_, rfl⟩
  refine ⟨e, .fresh e { continueOnViolation := true }, made, rfl, ?_⟩
  intro t strategy
  cases made
  have ended : ∃ o u, strategy.run 20 t = .ok o u ∧ u.run.violations.length = 2 :=
    exists_ok_of_check (by decide +kernel)
  obtain ⟨o, u, ran, two⟩ := ended
  let configured : Search GraphEngine Subject (RuleListener Subject) := { u with run := u.run.configure {} }
  let exchanged := { configured with run := { configured.run with engine := t.run.engine } }
  let forgetful := { exchanged with run := exchanged.run.resetProperties }
  obtain ⟨advanced, w, stepped⟩ : ∃ advanced w, Search.forward forgetful = .ok advanced w := ⟨_, _, rfl⟩
  have handled : Search.Handled t ([w, forgetful, exchanged, configured] ++ [u]) w := by
    apply Search.Handled.next _ (.forward (.inl ⟨advanced, stepped⟩))
    apply Search.Handled.next _ (.resetProperties (.inl ⟨(), rfl⟩))
    apply Search.Handled.next _ (.engine (fun _ => t.run.engine) (.inl ⟨(), rfl⟩))
    apply Search.Handled.next _ (.reconfigure {} (.inl ⟨(), rfl⟩))
    exact .next .start (.run strategy 20 (.inl ⟨o, ran⟩))
  obtain ⟨kept, forward⟩ := records_append_only_and_detached RuleListener.conducts_files rfl handled
  exact ⟨o, u, _, w, ran, two, rfl, handled, kept, forward⟩

end Statewalk
