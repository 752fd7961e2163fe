import Statewalk.Proofs.DepthTracking
import Statewalk.Proofs.Disciplines
import Statewalk.Session.Subject

/-! # Every strategy counts its depth right

Whatever the strategy, the depth differs from the engine's path only while a step is not yet counted, so
that the two agree in all announcements of a run.
-/

namespace Statewalk

section Strategies

variable {H E P L : Type} [Engine E] [Checkable E P] [Listener E P L]
  {sound : E → Prop} {genuine : Snapshot (Engine.Saved E) → Prop} {allowed : L → Prop}
  {counted : Prop} {j : Journal} (paced : Engine.Paced sound genuine)
  (restrained : Listener.Restrained (P := P) (Run.AtPath sound) allowed)

include paced restrained

open Search

/-- The search is about to be started with its engine at the root. -/
structure Run.AtRoot (sound : E → Prop) (j : Journal) (r : Run E P) : Prop where
  sound : sound r.engine
  root : Engine.pathLength r.engine = 0
  bulletins : r.journal.bulletins = j.bulletins

/-- The run came to its end at the depth of its engine's path, and all its announcements were in
    step; if steps are counted, the depth is what they come to. -/
structure Run.EndsInStep (counted : Prop) (j : Journal) (o : Outcome) (r : Run E P) : Prop where
  depth : o.depth = Engine.pathLength r.engine
  news : ∃ news, r.InStep j news ∧ (counted →
    o.depth + (news.map (·.event)).count .stateBacktracked = (news.map (·.event)).count .stateAdvanced)

omit paced restrained [Checkable E P] [Listener E P L] in
theorem Run.AtRoot.congr {r r' : Run E P} (h : r.AtRoot sound j) (engine : r'.engine = r.engine)
    (bulletins : r'.journal.bulletins = r.journal.bulletins) : r'.AtRoot sound j :=
  ⟨engine ▸ h.sound, engine ▸ h.root, bulletins.trans h.bulletins⟩

omit paced restrained [Checkable E P] [Listener E P L] in
theorem Run.AtRoot.level {r : Run E P} (h : r.AtRoot sound j) {depth : Nat} (root : depth = 0) :
    Aligned sound counted j 0 0 { r with depth } := by
  refine ⟨h.sound, by simp [h.root, root], [], ⟨by simpa using h.bulletins, by simp⟩, ?_⟩
  intro _
  simp [root]

omit paced restrained [Checkable E P] [Listener E P L] in
theorem Run.Aligned.endsInStep {r : Run E P} (h : Aligned sound counted j 0 0 r) {o : Outcome}
    (depth : o.depth = r.depth) : r.EndsInStep counted j o := by
  obtain ⟨news, inStep, sum⟩ := h.news
  refine ⟨depth.trans h.atPath.depth, news, inStep, ?_⟩
  intro count
  have := sum count
  rw [sum_rise] at this
  omega

/-- How the depth and the announcements are behind the engine at each juncture. -/
def Run.Tracks (sound : E → Prop) (counted : Prop) (j : Journal) : Juncture → Run E P → Prop
  | .ready => AtRoot sound j
  | .placed | .level | .returned => Aligned sound counted j 0 0
  | .stepped => Aligned sound counted j 1 0
  | .entered => Aligned sound counted j 0 (-1)
  | .left => Aligned sound counted j (-1) 0
  | .rejoined => Aligned sound counted j 0 1

theorem course_tracks :
    Course (fun a _ (s : Search E P L) => s.Heeded allowed (Run.Tracks sound counted j a))
      (Heeded allowed (Run.Aligned sound counted j 0 0)) (fun f s => s.run.FailsInStep j f) where
  prepare s r h errand := ⟨h.listeners, h.reporter, h.run.congr errand.engine errand.silent.bulletins⟩
  place s h := ⟨h.listeners, h.reporter, h.run.level rfl⟩
  start := (staysLevel_announce paced restrained rfl).imp_fail fun _ _ h => h.run
  narrow _ _ _ h _ := h
  turn _ h _ := h
  calm _ _ h _ := h
  errand _ s r h errand :=
    ⟨h.listeners, h.reporter, h.run.congr errand.engine errand.depth errand.silent.bulletins⟩
  ask _ := staysLevel_isNew.imp_fail fun _ _ h => h.run
  forward b := by
    apply ((ensures_forward paced).imp_fail fun _ _ h => h.run).imp
    intro moved s h
    cases moved <;> exact h
  descend _ := (ensures_onRun Run.ensures_descend).imp_fail fun _ _ h => h.run
  backtrack f := by
    apply ((ensures_backtrack paced).imp_fail fun _ _ h => h.run).imp
    intro moved s h
    cases moved <;> exact h
  ascend _ := (ensures_onRun Run.ensures_ascend).imp_fail fun _ _ h => h.run
  check _ _ s h := ⟨h.listeners, h.reporter, h.run.checkProperties⟩
  tell p a event due := by
    cases a with
    | entered | rejoined | returned =>
      cases due
      exact (ensures_announcement paced restrained _).imp_fail fun _ _ h => h.run
    | _ => cases due
  remark _ event silent _ := by
    have plain : event.rise = 0 := by cases event <;> first | rfl | cases silent
    exact (staysLevel_announce paced restrained plain).imp_fail fun _ _ h => h.run
  finish := (staysLevel_announce paced restrained rfl).imp_fail fun _ _ h => h.run
  rematch s h := ⟨h.listeners, h.reporter, h.run.congr rfl rfl rfl⟩
  close s h := ⟨h.listeners, h.reporter, h.run.congr rfl rfl rfl⟩

/-- Where steps are not counted, the search may return to snapshots too. -/
theorem excursion_tracks :
    Excursion genuine (· = 0) (fun a _ (s : Search E P L) => s.Heeded allowed (Run.Tracks sound False j a))
      (Heeded allowed (Run.Aligned sound False j 0 0)) (fun f s => s.run.FailsInStep j f) where
  toCourse := course_tracks paced restrained
  home _ h := h.run.root
  base s snapshot h saved := by
    obtain ⟨made, length⟩ := paced.snapshot _ _ h.run.sound saved
    exact ⟨made, length.trans h.run.root⟩
  settle s depth h root := ⟨h.listeners, h.reporter, h.run.level root⟩
  saved _ s snapshot h made := (paced.snapshot _ _ h.run.sound made).1
  restore f snapshot strategy made := (staysLevel_restore paced made strategy).imp_fail fun _ _ h => h.run
  rechoose f b s h := by
    obtain ⟨kept, length⟩ := paced.resetChoice s.run.engine h.run.sound
    exact ⟨h.listeners, h.reporter, kept, length ▸ h.run.path, h.run.news⟩
  bare s name h := ⟨by simp, [], by simpa [Run.InStep] using h.run.bulletins⟩
  unable p s name h := h.run.failsInStep (by simp)

/-! ## Runs -/

theorem DepthFirst.ensures_run (budget : Nat) :
    Ensures (Heeded allowed (Run.AtRoot sound j)) (DepthFirst.run (E := E) (P := P) (L := L) budget)
      (fun o t => t.run.EndsInStep counted j o) fun f t => t.run.FailsInStep j f :=
  (ensures_run_abiding (course_tracks paced restrained) (fun _ h => h.run.failsInStep (by simp)) budget).imp
    fun _ _ h => h.1.run.endsInStep h.2.2.depth

theorem Replay.ensures_run (budget : Nat) :
    Ensures (Heeded allowed (Run.AtRoot sound j)) (Replay.run (E := E) (P := P) (L := L) budget)
      (fun o t => t.run.EndsInStep counted j o) fun f t => t.run.FailsInStep j f :=
  (ensures_run_abiding (course_tracks paced restrained) (fun _ h => h.run.failsInStep (by simp)) budget).imp
    fun _ _ h => h.1.run.endsInStep h.2.2.depth

theorem Simulation.ensures_run (budget : Nat) :
    Ensures (Heeded allowed (Run.AtRoot sound j)) (Simulation.run (E := E) (P := P) (L := L) budget)
      (fun o t => t.run.EndsInStep counted j o) fun f t => t.run.FailsInStep j f :=
  (ensures_run_abiding (course_tracks paced restrained) (fun _ h => h.run.failsInStep (by simp)) budget).imp
    fun _ _ h => h.1.run.endsInStep h.2.2.depth

theorem RandomRestart.ensures_run (pathLimit budget : Nat) :
    Ensures (Heeded allowed (Run.AtRoot sound j))
      (RandomRestart.run (E := E) (P := P) (L := L) pathLimit budget)
      (fun o t => t.run.EndsInStep False j o) fun f t => t.run.FailsInStep j f :=
  (ensures_run_abiding (excursion_tracks paced restrained) (fun _ h => h.run.failsInStep (by simp)) pathLimit
    budget).imp fun _ _ h => h.1.run.endsInStep h.2.2.depth

/-- The heuristic does not fail as a search does that went above its root. -/
def Heuristic.Sober (H E P : Type) [Heuristic H E P] : Prop :=
  ∀ (r : Run E P) (h : H), (Heuristic.priority r h).1 ≠ .error .aboveRoot

theorem BestFirst.ensures_run [Heuristic H E P] (sober : Heuristic.Sober H E P) (budget : Nat) :
    Ensures (fun x => x.search.Heeded allowed (Run.AtRoot sound j))
      (BestFirst.run (H := H) (E := E) (P := P) (L := L) budget)
      (fun o x => x.search.run.EndsInStep False j o) fun f x => x.search.run.FailsInStep j f := by
  apply (ensures_run_abiding (excursion_tracks paced restrained) ?_
    (fun _ h => h.run.failsInStep (by simp)) budget).imp fun _ _ h => h.1.run.endsInStep h.2.2.depth
  intro _ s h f hs failed
  apply hs.run.failsInStep
  rintro ⟨⟩
  exact sober _ _ failed

/-! ## All strategies -/

/-- However the run goes, all its announcements are made at the depth of the engine's path; it does
    not fail for going above the root, and if it ends, it does so in step. -/
def Search.KeepsStep (s : Search E P L) (counted : Prop) (x : SearchM E P L Outcome) : Prop :=
  Ensures (· = s) x (fun o t => t.run.EndsInStep counted s.run.journal o)
    fun f t => t.run.FailsInStep s.run.journal f

@[inherit_doc Search.KeepsStep]
def Expedition.KeepsStep (x : Expedition H E P L) (run : ExpeditionM H E P L Outcome) : Prop :=
  Ensures (· = x) run (fun o y => y.search.run.EndsInStep False x.search.run.journal o)
    fun f y => y.search.run.FailsInStep x.search.run.journal f

/-- Whatever the engine, the configuration, the properties and the restrained listeners, all
    strategies keep their depth at the length of the engine's path.  Listeners need to be restrained
    only as long as they see it so. -/
theorem depth_follows_path [Heuristic H E P] (sober : Heuristic.Sober H E P) {s : Search E P L}
    (listeners : ∀ l ∈ s.listeners, allowed l) (reporter : ∀ l ∈ s.reporter, allowed l)
    (ready : sound s.run.engine) (root : Engine.pathLength s.run.engine = 0) (budget : Nat) :
    s.KeepsStep True (DepthFirst.run budget) ∧
      s.KeepsStep True (Replay.run budget) ∧
      s.KeepsStep True (Simulation.run budget) ∧
      (∀ pathLimit, s.KeepsStep False (RandomRestart.run pathLimit budget)) ∧
      ∀ b : BestFirst H E, Expedition.KeepsStep { strategy := b, search := s } (BestFirst.run budget) := by
  have start : s.Heeded allowed (Run.AtRoot sound s.run.journal) :=
    ⟨listeners, reporter, ready, root, rfl⟩
  refine ⟨?_, ?_, ?_, fun pathLimit => ?_, fun b => ?_⟩
  · exact (DepthFirst.ensures_run paced restrained budget).of_eq start
  · exact (Replay.ensures_run paced restrained budget).of_eq start
  · exact (Simulation.ensures_run paced restrained budget).of_eq start
  · exact (RandomRestart.ensures_run paced restrained pathLimit budget).of_eq start
  · exact (BestFirst.ensures_run paced restrained sober budget).of_eq start

end Strategies

theorem DeepestFirst.sober (E P : Type) : Heuristic.Sober DeepestFirst E P := by
  intro r h
  simp only [Heuristic.priority, negateSigned]
  split_ifs <;> simp

theorem meddled_depth_follows_path : ∃ e s, GraphEngine.ofGraph .tangle = .ok e ∧
    Search.ofEngine (e.withRandomChoices 3) { continueOnViolation := true, matchByMinDepth := true } = .ok s ∧
    ∀ budget,
      let t : Search GraphEngine Subject (RuleListener Subject) :=
        (s.addProperty (.forbidden { states := [1] })).addListener meddler
      t.KeepsStep True (DepthFirst.run budget) ∧
        t.KeepsStep False (RandomRestart.run 5 budget) ∧
        Expedition.KeepsStep { strategy := { heuristic := (⟨⟩ : DeepestFirst) }, search := t }
          (BestFirst.run budget) := by
  obtain ⟨e, made⟩ : ∃ e, GraphEngine.ofGraph .tangle = .ok e := ⟨_, rfl⟩
  have fresh := (GraphEngine.fresh_ofGraph made).withRandomChoices 3
  refine ⟨e, .fresh (e.withRandomChoices 3) _, made, rfl, ?_⟩
  intro budget t
  have ready : GraphEngine.WellFormed .tangle t.run.engine := fresh.wellFormed
  have root : Engine.pathLength t.run.engine = 0 := congrArg Path.length fresh.path
  have listeners : t.listeners = [meddler] := rfl
  obtain ⟨depthFirst, -, -, randomRestart, bestFirst⟩ := depth_follows_path
    (GraphEngine.paced .tangle) (RuleListener.restrained _) (DeepestFirst.sober _ _) (s := t)
    (by simpa [listeners] using meddler_isMild) nofun ready root budget
  exact ⟨depthFirst, randomRestart 5, bestFirst _⟩

end Statewalk
