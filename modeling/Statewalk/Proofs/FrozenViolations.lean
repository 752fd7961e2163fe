import Statewalk.Proofs.Disciplines
import Statewalk.Proofs.Telling

/-! # Frozen violations

A search that ends with its first violation keeps a live record of it, which tells the engine's path and
threads as they are whenever it is looked at.  That does no harm: from the moment at which the violation
is recorded nobody moves the engine and no property is checked, in this run or in any later one, so what
the record tells in the end is what there was to tell when the violation was found.
-/

namespace Statewalk

namespace Engine

variable {E : Type} [Engine E]

/-- Marks leave the path and the threads alone. -/
def MarksLightly (E : Type) [Engine E] : Prop :=
  ∀ (e : E) (mark : Bool), path (ignore mark e) = path e ∧ threads (ignore mark e) = threads e

theorem Marked.path_threads {e e' : E} (marked : Marked e e') (light : MarksLightly E) :
    path e' = path e ∧ threads e' = threads e := by
  induction marked with
  | refl => exact ⟨rfl, rfl⟩
  | tail _ last ih =>
    obtain ⟨mark, rfl⟩ := last
    exact ⟨(light _ mark).1.trans ih.1, (light _ mark).2.trans ih.2⟩

end Engine

namespace Run

variable {E P : Type} {r r' r'' : Run E P} {p q : Scope}

/-- There is no violation, or one whose live record ended the search. -/
def Whole (r : Run E P) : Prop :=
  r.violations = [] ∧ r.atViolation = false ∨
    ∃ v w, r.violations = [v] ∧ v.evidence = .live w ∧ r.done = true ∧ r.atViolation = true

theorem Whole.length_le (h : r.Whole) : r.violations.length ≤ 1 := by
  obtain ⟨none, -⟩ | ⟨v, w, one, -⟩ := h
  · simp [none]
  · simp [one]

theorem Whole.done (h : r.Whole) (some : r.violations ≠ []) : r.done = true := by
  obtain ⟨none, -⟩ | ⟨v, w, -, -, done, -⟩ := h
  · exact absurd none some
  · exact done

theorem Whole.of_eq (h : r.Whole) (violations : r'.violations = r.violations)
    (atViolation : r'.atViolation = r.atViolation) (done : r.done = true → r'.done = true) : r'.Whole := by
  obtain ⟨none, calm⟩ | ⟨v, w, one, live, isDone, here⟩ := h
  · exact .inl ⟨violations.trans none, atViolation.trans calm⟩
  · exact .inr ⟨v, w, violations.trans one, live, done isDone, atViolation.trans here⟩

/-- The search ends with its first violation, and is calm if it has none. -/
structure Single (p : Scope) (r : Run E P) : Prop where
  config : r.config.continueOnViolation = false
  whole : r.Whole
  calm : p.calm = true → r.violations = []

namespace Single

theorem narrow (h : r.Single p) (within : q.Within p) : r.Single q :=
  ⟨h.config, h.whole, fun calm => h.calm (within.2.2 calm)⟩

theorem of_eq (h : r.Single p) (config : r'.config = r.config) (violations : r'.violations = r.violations)
    (atViolation : r'.atViolation = r.atViolation) (done : r.done = true → r'.done = true) : r'.Single p where
  config := by rw [config, h.config]
  whole := h.whole.of_eq violations atViolation done
  calm calm := violations.trans (h.calm calm)

theorem of_chore (h : r.Single p) (chore : r.Chore r') : r'.Single p :=
  h.of_eq chore.config chore.violations chore.atViolation chore.done

/-- While there is no violation the marks of the last step can be taken away. -/
theorem clear {f b : Bool} (h : r.Single ⟨f, b, true⟩) :
    Single ⟨f, b, true⟩ { r with atViolation := false, lastQuery := none } :=
  ⟨h.config, .inl ⟨h.calm rfl, rfl⟩, h.calm⟩

theorem checkProperties [Engine E] [Checkable E P] {f b : Bool} (h : r.Single ⟨f, b, true⟩) :
    r.checkProperties.2.Single ⟨f, b, false⟩ := by
  have clean := h.calm rfl
  unfold Run.checkProperties
  split
  rename_i properties violated _
  cases violated with
  | none => exact ⟨h.config, h.whole, fun _ => clean⟩
  | some w =>
    have live : Run.evidence w { r with properties } = .live w := by simp [Run.evidence, h.config]
    let v : Violation P := { id := r.violations.length + 1, evidence := Run.evidence w { r with properties } }
    have one : r.violations ++ [v] = [v] := by rw [clean, List.nil_append]
    have stopped : (r.done || !r.config.continueOnViolation) = true := by simp [h.config]
    exact ⟨h.config, .inr ⟨v, w, one, live, stopped, rfl⟩, fun calm => by cases calm⟩

end Single

/-! ## What a record rests on -/

section Unaltered

variable [Engine E]

/-- The violations are the same, and so is all that their records rest on but for marks. -/
structure Unaltered (r r' : Run E P) : Prop where
  engine : Engine.Marked r.engine r'.engine
  violations : r'.violations = r.violations
  properties : r'.properties = r.properties
  retired : r'.retired = r.retired

theorem Unaltered.refl (r : Run E P) : Unaltered r r :=
  ⟨.refl, rfl, rfl, rfl⟩

theorem Unaltered.trans (h : Unaltered r r') (h' : Unaltered r' r'') : Unaltered r r'' where
  engine := h.engine.trans h'.engine
  violations := h'.violations.trans h.violations
  properties := h'.properties.trans h.properties
  retired := h'.retired.trans h.retired

theorem Unaltered.of_chore (chore : r.Chore r') (single : r.config.continueOnViolation = false) :
    Unaltered r r' where
  engine := by rw [chore.engine]; exact .refl
  violations := chore.violations
  properties := chore.properties single
  retired := chore.retired

theorem Touch.retired (h : Touch r r') : r'.retired = r.retired := by
  cases h with
  | aside => rfl
  | call call =>
    cases call with
    | ask asked =>
      obtain ⟨_, _, _, given, -⟩ | ⟨_, failed, -⟩ := isNew_cases r
      · rw [given] at asked
        cases asked
        rfl
      · rw [failed] at asked
        cases asked
    | gauge => exact (Chore.hasMemory r).retired
    | _ => rfl

theorem Unaltered.summaries [Property P] (h : Unaltered r r') (light : Engine.MarksLightly E) :
    r'.summaries = r.summaries := by
  have same := h.engine.path_threads light
  have summary (v : Violation P) : r'.summary v = r.summary v := by
    simp only [Run.summary, Run.current, h.properties, h.retired, same]
  unfold Run.summaries
  rw [h.violations]
  exact List.map_congr_left fun v _ => summary v

/-- A live record tells the path and threads there are. -/
theorem Whole.summaries [Property P] (h : r.Whole) :
    ∀ y ∈ r.summaries, y.path = Engine.path r.engine ∧ y.threads = Engine.threads r.engine := by
  obtain ⟨none, -⟩ | ⟨v, w, one, live, -⟩ := h
  · simp [Run.summaries, none]
  · simp [Run.summaries, one, Run.summary, live]

end Unaltered

end Run

/-! ## Searches -/

namespace Search

variable {E P L : Type} [Engine E] [Checkable E P] [Listener E P L] {allowed : L → Prop}
  {s₀ s t : Search E P L} {p q : Scope} {o : Occurrence}

/-- The search does something; if it has a violation, then nothing that touches its record. -/
structure Tight (o : Occurrence) (s t : Search E P L) : Prop where
  does : Does o s t
  whole : t.run.Whole
  frozen : s.run.violations ≠ [] → o.isMove = false ∧ s.run.Unaltered t.run

/-- The search came about so, and is to end with its first violation. -/
def Frozen (allowed : L → Prop) (s₀ : Search E P L) (p : Scope) (s : Search E P L) : Prop :=
  s.Heeded allowed (Run.Single p) ∧ ∃ h, Trail Tight s₀ h s

namespace Frozen

theorem start (h : s.Heeded allowed (Run.Single p)) : Frozen allowed s p s :=
  ⟨h, [], .start⟩

theorem narrow (h : Frozen allowed s₀ p s) (within : q.Within p) : Frozen allowed s₀ q s :=
  ⟨h.1.imp fun _ single => single.narrow within, h.2⟩

theorem next (h : Frozen allowed s₀ p s) (does : Does o s t) (heeded : t.Heeded allowed (Run.Single q))
    (frozen : s.run.violations ≠ [] → o.isMove = false ∧ s.run.Unaltered t.run) :
    Frozen allowed s₀ q t := by
  obtain ⟨-, history, trail⟩ := h
  exact ⟨heeded, _, .next trail ⟨does, heeded.run.whole, frozen⟩⟩

/-- What is only done without a violation may be anything that respects the rules for the first one. -/
theorem calmly {f b : Bool} {r : Run E P} (h : Frozen allowed s₀ ⟨f, b, true⟩ s)
    (does : Does o s { s with run := r }) (single : r.Single q) : Frozen allowed s₀ q { s with run := r } :=
  h.next does ⟨h.1.listeners, h.1.reporter, single⟩ fun violated => absurd (h.1.run.calm rfl) violated

theorem chore {r : Run E P} (h : Frozen allowed s₀ p s) (chore : s.run.Chore r) :
    Frozen allowed s₀ p { s with run := r } :=
  h.next (.chore chore) ⟨h.1.listeners, h.1.reporter, h.1.run.of_chore chore⟩
    fun _ => ⟨rfl, .of_chore chore h.1.run.config⟩

theorem to_none (h : Frozen allowed s₀ p s) : Frozen allowed s₀ .none s :=
  h.narrow (Scope.none_within p)

/-- A restrained listener may be told of anything. -/
theorem call (restrained : Listener.Restrained (E := E) (P := P) (fun _ => True) allowed)
    (h : Frozen allowed s₀ p s) {number : Nat} {l : L} (there : s.hearers[number]? = some l)
    (event : Event) : Frozen allowed s₀ p (s.heard number (Listener.tell event l s.run)) := by
  let J (r : Run E P) : Prop := s.run.Attended r ∧ r.retired = s.run.retired
  have robust : Run.Robust J := fun r r' hr touch =>
    ⟨hr.1.trans touch.attended, touch.retired.trans hr.2⟩
  have told := Listener.tell_robust (restrained.of_imp fun _ _ => trivial) robust
    (h.1.allowed_of_hearers there) ⟨.refl s.run, rfl⟩ event
  obtain ⟨attended, retired⟩ := told.run
  have single : (Listener.tell event l s.run).run.Single p :=
    h.1.run.of_eq attended.config attended.violations attended.atViolation attended.done
  refine h.next (.call event there) (h.1.heard ⟨told.listener, single, told.verdict⟩ number) fun _ => ?_
  rw [run_heard]
  exact ⟨rfl, attended.engine, attended.violations, attended.properties, retired⟩

end Frozen

theorem frozen_announce (restrained : Listener.Restrained (E := E) (P := P) (fun _ => True) allowed)
    (p : Scope) (event : Event) :
    Ensures (Frozen (E := E) (P := P) allowed s₀ p) (announce event) (fun _ => Frozen allowed s₀ p)
      (fun _ => Frozen allowed s₀ .none) := by
  have entered (s : Search E P L) (h : Frozen allowed s₀ p s) :
      Frozen allowed s₀ p { s with run := s.run.record (.announced (s.bulletin event)) } := by
    have single : (s.run.record (.announced (s.bulletin event))).Single p :=
      h.1.run.of_eq rfl rfl rfl id
    exact h.next (.announce event s) ⟨h.1.listeners, h.1.reporter, single⟩
      fun _ => ⟨rfl, .refl, rfl, rfl, rfl⟩
  apply ensures_announce_of_broadcast entered
  apply ensures_broadcast_of_calls (I := fun _ => Frozen allowed s₀ p)
  intro number s l h there
  have called := h.call restrained there event
  exact ⟨fun _ => called, fun _ _ => called.to_none⟩

/-- Every strategy leaves a search that is to end with its first violation frozen at it. -/
theorem discipline_frozen (restrained : Listener.Restrained (E := E) (P := P) (fun _ => True) allowed)
    (s₀ : Search E P L) :
    Discipline (Frozen allowed s₀) (Frozen allowed s₀ .none) (fun _ => Frozen allowed s₀ .none) where
  narrow _ _ _ h within := h.narrow within
  turn s h goesOn := by
    -- A search that goes on has no violation yet.
    have clean : s.run.violations = [] := by
      by_contra violated
      rw [h.1.run.whole.done violated] at goesOn
      cases goesOn
    exact h.next (.turn goesOn) ⟨h.1.listeners, h.1.reporter, h.1.run.config, h.1.run.whole, fun _ => clean⟩
      fun _ => ⟨rfl, .refl s.run⟩
  calm p s h goesOn := by
    have clean : s.run.violations = [] := by
      obtain ⟨none, -⟩ | ⟨_, _, -, -, done, here⟩ := h.1.run.whole
      · exact none
      · rw [goesOn here] at done
        cases done
    exact ⟨⟨h.1.listeners, h.1.reporter, h.1.run.config, h.1.run.whole, fun _ => clean⟩, h.2⟩
  chore _ _ _ h chore := h.chore chore
  rechoose f b s h := h.calmly (.rechoose s) (h.1.run.of_eq rfl rfl rfl id)
  forward b := by
    apply ensures_forward_of _ (fun s h => h.calmly (.clear s) h.1.run.clear)
    · intro s h
      have single : s.run.stepForward.2.Single ⟨true, b, true⟩ := by
        rw [Run.stepForward_eq]
        exact h.1.run.of_eq rfl rfl rfl id
      exact h.calmly (.forward s) single
    · exact fun s h => (h.calmly (.check s) h.1.run.checkProperties).narrow (by simp [Scope.Within])
  backtrack f := by
    apply ensures_backtrack_of fun s h => h.chore (.of_eq rfl rfl rfl rfl rfl rfl rfl rfl)
    exact fun s h => (h.calmly (.backtrack s) (h.1.run.of_eq rfl rfl rfl id)).narrow (by simp [Scope.Within])
  restore f snapshot strategy := by
    apply ensures_restore_of (Frozen allowed s₀ ⟨f, false, true⟩) fun s h => h.calmly (.clear s) h.1.run.clear
    · exact fun s h => (h.calmly (.restore snapshot s) (h.1.run.of_eq rfl rfl rfl id)).narrow
        (by simp [Scope.Within])
    · exact fun s _ h => h.chore (.of_eq rfl rfl rfl rfl rfl rfl rfl rfl)
    · exact fun _ h => h.to_none
  check f b := fun s h => h.calmly (.check s) h.1.run.checkProperties
  announce p event _ := frozen_announce restrained p event
  finish := frozen_announce restrained .none .searchFinished
  close _ _ h chore := h.chore chore
  lapse _ _ _ h _ := h.to_none

/-! ## Sequences of runs -/

/-- The second search is what becomes of the first one by any number of runs, of any strategies and with
    any budgets, whether they come to their end or fail. -/
inductive Succession (s : Search E P L) : Search E P L → Prop where
  | start : Succession s s
  | ended {H : Type} [Heuristic H E P] {a : Strategy H E} {budget : Nat} {o : Outcome} {t u : Search E P L} :
      Succession s t → a.run budget t = .ok o u → Succession s u
  | failed {H : Type} [Heuristic H E P] {a : Strategy H E} {budget : Nat} {f : Failure} {t u : Search E P L} :
      Succession s t → a.run budget t = .error f u → Succession s u

theorem succession_of_bind {H : Type} [Heuristic H E P] {a a' : Strategy H E} {budget budget' : Nat}
    {o : Outcome} (ran : (a.run budget >>= fun _ => a'.run budget') s = .ok o t) : Succession s t := by
  simp only [bind, EStateM.bind] at ran
  cases first : a.run budget s with
  | ok _ u =>
    rw [first] at ran
    exact .ended (.ended .start first) ran
  | error f u =>
    rw [first] at ran
    cases ran

theorem frozen_of_succession (restrained : Listener.Restrained (E := E) (P := P) (fun _ => True) allowed)
    (runs : Succession s t) (h : Frozen allowed s₀ .none s) : Frozen allowed s₀ .none t := by
  have run {H : Type} [Heuristic H E P] (a : Strategy H E) (budget : Nat) :=
    a.ensures_run (discipline_frozen restrained s₀) (fun _ h => h) budget
  induction runs with
  | start => exact h
  | @ended _ _ a budget _ t _ _ ran ih => exact ((run a budget).of_ok ih ran).1
  | @failed _ _ a budget _ t _ _ ran ih =>
    have after := run a budget t ih
    rwa [ran] at after

/-- From a violation on nothing happens that touches its record. -/
theorem unaltered_of_trail {h : List (Occurrence × Search E P L)} (trail : Trail Tight s h t)
    (violated : s.run.violations ≠ []) :
    s.run.Unaltered t.run ∧ ∀ x ∈ h, x.1.isMove = false ∧ s.run.Unaltered x.2.run := by
  induction trail with
  | start => exact ⟨.refl s.run, List.forall_mem_nil _⟩
  | next _ last ih =>
    obtain ⟨before, rest⟩ := ih
    obtain ⟨unmoved, step⟩ := last.frozen (before.violations ▸ violated)
    have here := before.trans step
    exact ⟨here, List.forall_mem_cons.2 ⟨⟨unmoved, here⟩, rest⟩⟩

theorem whole_of_mem_trail {h : List (Occurrence × Search E P L)} (trail : Trail Tight s h t) :
    ∀ x ∈ h, x.2.run.Whole := by
  induction trail with
  | start => exact List.forall_mem_nil _
  | next _ last ih => exact List.forall_mem_cons.2 ⟨last.whole, ih⟩

end Search

section Freeze

variable {E P L : Type} [Engine E] [Checkable E P] [Listener E P L] {allowed : L → Prop}

open Search

/-- A search that ends with its first violation has at most one at any time, in any sequence of runs,
    and is done as soon as it has it.  From then on the engine is not told to move, and only marks
    change it.  If marks leave the path and the threads alone, what is known of the violation in the end
    is what was known of it then, with the path and the threads of that moment. -/
theorem violation_freezes_search {s t : Search E P L}
    (restrained : Listener.Restrained (E := E) (P := P) (fun _ => True) allowed)
    (listeners : ∀ l ∈ s.listeners, allowed l) (reporter : ∀ l ∈ s.reporter, allowed l)
    (single : s.run.config.continueOnViolation = false) (clean : s.run.violations = [])
    (calm : s.run.atViolation = false) (runs : Succession s t) :
    ∃ h, Trail Does s h t ∧
      (∀ x ∈ h, x.2.run.violations.length ≤ 1 ∧ (x.2.run.violations ≠ [] → x.2.run.done = true)) ∧
      ∀ after before o u, h = after ++ (o, u) :: before → u.run.violations ≠ [] →
        (∀ x ∈ after, x.1.isMove = false ∧ x.2.run.violations = u.run.violations) ∧
        Engine.Marked u.run.engine t.run.engine ∧
        (Engine.MarksLightly E → t.run.summaries = u.run.summaries ∧ ∀ y ∈ t.run.summaries,
          y.path = Engine.path u.run.engine ∧ y.threads = Engine.threads u.run.engine) := by
  have fresh : s.run.Single .none := ⟨single, .inl ⟨clean, calm⟩, fun _ => clean⟩
  obtain ⟨-, h, trail⟩ := frozen_of_succession restrained runs (.start ⟨listeners, reporter, fresh⟩)
  have whole := whole_of_mem_trail trail
  refine ⟨h, trail.mono fun _ _ _ tight => tight.does, fun x member => ?_, ?_⟩
  · exact ⟨(whole x member).length_le, (whole x member).done⟩
  · rintro after before o u rfl violated
    obtain ⟨kept, rest⟩ := unaltered_of_trail trail.split.2 violated
    refine ⟨fun x member => ⟨(rest x member).1, (rest x member).2.violations⟩, kept.engine, fun light => ?_⟩
    have same := kept.summaries light
    exact ⟨same, same ▸ (whole (o, u) (by simp)).summaries⟩

end Freeze

theorem tangle_violation_freezes_search : ∃ e s, GraphEngine.ofGraph .tangle = .ok e ∧
    Search.ofEngine e {} = .ok s ∧
    let t : Search GraphEngine Subject (RuleListener Subject) :=
      (s.addProperty (.forbidden { states := [1] })).addListener inquirer
    let first : Strategy DeepestFirst GraphEngine := .depthFirst
    let second : Strategy DeepestFirst GraphEngine := .bestFirst { heuristic := ⟨⟩ }
    ∃ o u, (first.run 20 >>= fun _ => second.run 20) t = .ok o u ∧ u.run.violations.length = 1 ∧
      ∃ h, Trail Search.Does t h u ∧
        (∀ x ∈ h, x.2.run.violations.length ≤ 1 ∧ (x.2.run.violations ≠ [] → x.2.run.done = true)) ∧
        ∀ after before o v, h = after ++ (o, v) :: before → v.run.violations ≠ [] →
          (∀ x ∈ after, x.1.isMove = false ∧ x.2.run.violations = v.run.violations) ∧
          Engine.Marked v.run.engine u.run.engine ∧ u.run.summaries = v.run.summaries ∧
          ∀ y ∈ u.run.summaries,
            y.path = Engine.path v.run.engine ∧ y.threads = Engine.threads v.run.engine := by
  refine ⟨_, .fresh _ {}, rfl, rfl, ?_⟩
  intro t first second
  have ended : ∃ o u, (first.run 20 >>= fun _ => second.run 20) t = .ok o u ∧ u.run.violations.length = 1 :=
    exists_ok_of_check (by decide +kernel)
  obtain ⟨o, u, ran, one⟩ := ended
  have listeners : ∀ l ∈ t.listeners, l.isMild := by
    have eq : t.listeners = [inquirer] := rfl
    simpa [eq] using inquirer_isMild
  have reporter : ∀ l ∈ t.reporter, l.isMild := by
    have eq : t.reporter = none := rfl
    simp [eq]
  have light : Engine.MarksLightly GraphEngine := fun _ _ => ⟨rfl, rfl⟩
  obtain ⟨h, trail, points, frozen⟩ := violation_freezes_search (RuleListener.restrained _) listeners reporter
    rfl rfl rfl (Search.succession_of_bind ran)
  refine ⟨o, u, ran, one, h, trail, points, ?_⟩
  intro after before o v split violated
  obtain ⟨unmoved, marked, told⟩ := frozen after before o v split violated
  exact ⟨unmoved, marked, told light⟩

end Statewalk
