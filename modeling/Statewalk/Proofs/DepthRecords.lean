import Statewalk.Proofs.DepthFirstOutline
import Statewalk.Proofs.GraphRuns
import Statewalk.Proofs.Newness

/-! # Recorded depths

When states are matched by depth, depths are recorded as a side effect of asking for newness.  A
depth-first search over a graph leaves no state without having asked, so that all visited states but
the current one are recorded, and nobody can ask for the depth of a state that has none.
-/

namespace Statewalk

theorem DepthTable.contains_set {t u : DepthTable} {s q : StateId} {d : Nat} (h : t.set s d = .ok u) :
    u.contains q = true ↔ q = s ∨ t.contains q = true := by
  rw [contains_eq, contains_eq, find?_set h]
  split
  · simp [*]
  · simp [*]

namespace Run

section Traceable

variable {E P : Type} [Engine E] {r r' : Run E P}

/-- If the engine does not call its state new, there is a record of it. -/
def Traceable (r : Run E P) : Prop :=
  Engine.isNew r.engine = false → r.depths.contains (Engine.stateId r.engine) = true

theorem Traceable.isNew_error (h : r.Traceable) (byDepth : r.config.matchByMinDepth = true)
    (matching : r.matching = true) {f : Failure} (failed : isNew r = .error f r') :
    f.mentionsUnvisited = false := by
  have judged := judged_judge byDepth
  rw [judge_of_isNew_error matching failed] at judged
  cases judged with
  | unrecorded old missing =>
    have recorded := h old
    simp [DepthTable.contains_eq, missing] at recorded
  | full fault => rfl

/-- However the question is answered, the state is recorded afterwards, and so is what was before. -/
theorem contains_of_isNew {answer : Bool} (byDepth : r.config.matchByMinDepth = true)
    (matching : r.matching = true)
    (query : ∀ q, r.lastQuery = some q → r.depths.contains q.state = true)
    (h : isNew r = .ok answer r') {s : StateId}
    (known : s = Engine.stateId r.engine ∨ r.depths.contains s = true) :
    r'.depths.contains s = true := by
  obtain ⟨cached, rfl⟩ | ⟨depths, -, judged, rfl⟩ := cases_of_isNew matching h
  · -- The last answer is about the current state, and was recorded when it was given.
    obtain ⟨q, last, state, -, -⟩ := exists_of_cachedAnswer? cached
    cases known with
    | inl current => exact current ▸ state ▸ query q last
    | inr known => exact known
  · have how := judged_judge byDepth
    rw [judged] at how
    cases how with
    | recorded set _ => exact (DepthTable.contains_set set).2 known
    | known _ found _ =>
      cases known with
      | inl current => simp [answered, current, DepthTable.contains_eq, found]
      | inr known => exact known

end Traceable

/-! ## Charts -/

variable {P : Type} {g : StateGraph} {r r' : Run GraphEngine P}

/-- All visited states are recorded, but for the current one while the engine calls it new; what was
    asked for last is recorded. -/
structure Charted (g : StateGraph) (r : Run GraphEngine P) : Prop where
  byDepth : r.config.matchByMinDepth = true
  matching : r.matching = true
  wellFormed : r.engine.WellFormed g
  visited : ∀ f ∈ r.engine.frames, f.state ∈ r.engine.visited
  recorded : ∀ s ∈ r.engine.visited,
    r.depths.contains s = true ∨ (s = r.engine.current ∧ r.engine.isNew = true)
  query : ∀ q, r.lastQuery = some q → r.depths.contains q.state = true

/-- All visited states are recorded. -/
structure Complete (g : StateGraph) (r : Run GraphEngine P) : Prop extends Charted g r where
  complete : ∀ s ∈ r.engine.visited, r.depths.contains s = true

namespace Charted

theorem current_mem (h : Charted g r) : r.engine.current ∈ r.engine.visited := by
  obtain ⟨top, rest, frames⟩ := h.wellFormed.exists_frames
  rw [GraphEngine.current_of_frames frames]
  exact h.visited top (by simp [frames])

theorem traceable (h : Charted g r) : r.Traceable := by
  intro old
  cases h.recorded _ h.current_mem with
  | inl recorded => exact recorded
  | inr new => exact absurd (new.2.symm.trans old) (by simp)

/-- Only what the engine has visited, what is recorded and what was asked for count. -/
theorem congr (h : Charted g r) (config : r'.config = r.config) (matching : r'.matching = r.matching)
    (engine : r'.engine = r.engine) (depths : r'.depths = r.depths)
    (query : r'.lastQuery = r.lastQuery) : Charted g r' := by
  constructor
  · rw [config]
    exact h.byDepth
  · rw [matching]
    exact h.matching
  · rw [engine]
    exact h.wellFormed
  · rw [engine]
    exact h.visited
  · rw [engine, depths]
    exact h.recorded
  · rw [query, depths]
    exact h.query

theorem ignore (h : Charted g r) (mark : Bool) : Charted g (r.ignore mark) where
  byDepth := h.byDepth
  matching := h.matching
  wellFormed := ⟨h.wellFormed.graph, h.wellFormed.stacked, h.wellFormed.application, h.wellFormed.threads⟩
  visited := h.visited
  recorded := h.recorded
  query := h.query

/-- Once asked for newness, there is no state left that is not recorded. -/
theorem complete_of_isNew (h : Charted g r) {answer : Bool} (asked : isNew r = .ok answer r') :
    Complete g r' := by
  have contains (s : StateId) (known : s = r.engine.current ∨ r.depths.contains s = true) :
      r'.depths.contains s = true := contains_of_isNew h.byDepth h.matching h.query asked known
  have complete (s : StateId) (member : s ∈ r.engine.visited) : r'.depths.contains s = true := by
    cases h.recorded s member with
    | inl recorded => exact contains s (.inr recorded)
    | inr new => exact contains s (.inl new.1)
  obtain ⟨cached, rfl⟩ | ⟨depths, -, -, rfl⟩ := cases_of_isNew h.matching asked
  · exact ⟨h, complete⟩
  · refine ⟨⟨h.byDepth, h.matching, h.wellFormed, h.visited, fun s member => .inl (complete s member), ?_⟩,
      complete⟩
    rintro q ⟨⟩
    exact complete _ h.current_mem

theorem unstirred : Unstirred (Charted (P := P) g) := by
  apply Unstirred.of_kept
  · exact fun r e _ h => h.congr rfl rfl rfl rfl rfl
  · exact fun r r' engine config _ depths matching query _ h => h.congr config matching engine depths query
  · exact fun r answer r' h asked => (h.complete_of_isNew asked).toCharted
  · exact fun r mark h => h.ignore mark

theorem stable : Stable (Charted (P := P) g) (·.mentionsUnvisited = false) (Charted g) where
  unstirred := unstirred
  final _ h := h
  asked _ _ h failed := h.traceable.isNew_error h.byDepth h.matching failed

end Charted

namespace Complete

theorem unstirred : Unstirred (Complete (P := P) g) := by
  apply Unstirred.of_kept
  · exact fun r e _ h => ⟨h.toCharted.congr rfl rfl rfl rfl rfl, h.complete⟩
  · intro r r' engine config _ depths matching query _ h
    refine ⟨h.toCharted.congr config matching engine depths query, ?_⟩
    rw [engine, depths]
    exact h.complete
  · exact fun r answer r' h asked => h.complete_of_isNew asked
  · exact fun r mark h => ⟨h.toCharted.ignore mark, h.complete⟩

theorem stable : Stable (Charted (P := P) g) (·.mentionsUnvisited = false) (Complete g) where
  unstirred := unstirred
  final _ h := h.toCharted
  asked _ _ h failed := h.traceable.isNew_error h.byDepth h.matching failed

/-- A state that is entered is recorded already, or new. -/
theorem moves (h : Complete g r) (moved : (Engine.forward r.engine).1 = true) :
    Charted g { r.stepped with depth := r.depth + 1 } := by
  obtain ⟨top, rest, frames⟩ := h.wellFormed.exists_frames
  obtain ⟨edge, enters⟩ | ⟨-, stuck⟩ := h.wellFormed.forward_cases frames
  · have engine := Run.engine_stepped_of_enters enters
    have visited : ∀ f ∈ top :: rest, f.state ∈ r.engine.visited := frames ▸ h.visited
    refine ⟨h.byDepth, h.matching, ?_, ?_, ?_, by simp [stepped]⟩
    · rw [engine]
      exact enters.wellFormed
    · intro f member
      rw [engine] at member ⊢
      rw [GraphEngine.mem_visited_enter]
      simp only [GraphEngine.frames_enter, List.mem_cons] at member
      rcases member with rfl | rfl | member
      · exact .inl rfl
      · exact .inr (visited top (by simp))
      · exact .inr (visited f (by simp [member]))
    · intro s member
      rw [engine] at member ⊢
      rw [GraphEngine.isNew_enter, GraphEngine.current_enter, decide_eq_true_eq]
      by_cases seen : s ∈ r.engine.visited
      · exact .inl (h.complete s seen)
      · have target : s = edge.target := ((GraphEngine.mem_visited_enter _ _).1 member).resolve_right seen
        exact .inr ⟨target, target ▸ seen⟩
  · rw [stuck] at moved
    cases moved

theorem stuck (h : Complete g r) (refused : (Engine.forward r.engine).1 = false) :
    Charted g r.stepped := by
  obtain ⟨top, rest, frames⟩ := h.wellFormed.exists_frames
  obtain ⟨edge, enters⟩ | ⟨-, stuck⟩ := h.wellFormed.forward_cases frames
  · rw [enters.forward] at refused
    cases refused
  · have engine := Run.engine_stepped_of_stuck stuck
    refine ⟨h.byDepth, h.matching, ?_, ?_, ?_, by simp [stepped]⟩
    · rw [engine]
      exact h.wellFormed.stall
    · rw [engine]
      exact h.visited
    · rw [engine]
      exact fun s member => .inl (h.complete s member)

/-- Stepping back visits nothing. -/
theorem stepBack (h : Complete g r) (d : Nat) : Complete g { r.forgetQuery.stepBack.2 with depth := d } := by
  obtain ⟨top, rest, frames⟩ := h.wellFormed.exists_frames
  have visited : ∀ f ∈ top :: rest, f.state ∈ r.engine.visited := frames ▸ h.visited
  cases rest with
  | nil =>
    have engine := Run.engine_stepBack_of_root frames
    refine ⟨⟨h.byDepth, h.matching, ?_, ?_, ?_, by simp [Run.stepBack, forgetQuery, record]⟩, ?_⟩
    all_goals rw [engine]
    · exact h.wellFormed
    · exact h.visited
    · exact h.recorded
    · exact h.complete
  | cons below rest =>
    have engine := Run.engine_stepBack_of_frames frames
    refine ⟨⟨h.byDepth, h.matching, ?_, ?_, ?_, by simp [Run.stepBack, forgetQuery, record]⟩, ?_⟩
    all_goals rw [engine]
    · exact h.wellFormed.backtrack frames
    · exact fun f member => visited f (List.mem_cons_of_mem top member)
    · exact fun s member => .inl (h.complete s member)
    · exact h.complete

end Complete

theorem Charted.of_fresh (fresh : r.engine.Fresh g) (byDepth : r.config.matchByMinDepth = true)
    (query : r.lastQuery = none) : Charted g { r with matching := true, depth := 0 } := by
  obtain ⟨choices, frames⟩ := fresh.frames
  refine ⟨byDepth, rfl, fresh.wellFormed, ?_, ?_, by simp [query]⟩
  · simp [frames, fresh.visited]
  · intro s member
    rw [fresh.visited, List.mem_singleton] at member
    refine .inr ⟨?_, fresh.isNew⟩
    rw [GraphEngine.current_of_frames frames, member]

end Run

/-! ## Depth-first search -/

namespace DepthFirst

open Search

variable {P : Type} {g : StateGraph}

/-- A state is left only after it was asked for, which is all it takes to keep the records complete. -/
theorem outline_charted : Outline (P := P) (Run.Charted g) (Run.Charted g) (Run.Complete g) (Run.Charted g)
    (fun _ => Run.Complete g) (·.mentionsUnvisited = false) where
  closed :=
    { own := fun f own => by simp_all [Failure.isOwn]
      raised := fun f event name h => by simpa using h }
  stable_head := Run.Charted.stable
  stable_next := Run.Charted.stable
  stable_opened := Run.Complete.stable
  stable_final := Run.Charted.stable
  depth r d h := h.congr rfl rfl rfl rfl rfl
  ask r answer r' h asked := h.complete_of_isNew asked
  taken r answer h := Run.Complete.unstirred r _ h (.flags rfl rfl rfl rfl rfl rfl rfl)
  stays r h := h
  back r answer r' h back := by
    have kept := h.stepBack (r.forgetQuery.stepBack.2.depth - 1)
    rw [back] at kept
    exact kept
  exhausted r answer r' h back := by
    have kept := (h.stepBack r.forgetQuery.stepBack.2.depth).toCharted
    rw [back] at kept
    exact kept
  moves r h moved := h.moves moved
  stuck r h refused := h.stuck refused

end DepthFirst

section Listeners

open Search

variable {P L : Type} {g : StateGraph} [Checkable GraphEngine P] [Listener GraphEngine P L]
  {allowed : L → Prop}

/-- A depth-first search that matches states by depth never asks for the depth of a state that has no
    record, neither itself nor through a listener.  Whenever listeners are told of something, a state
    that is not new is recorded: they need to be restrained only as long as they see that. -/
theorem depth_first_search_keeps_records
    (restrained : Listener.Restrained (Run.Traceable (E := GraphEngine) (P := P)) allowed)
    (candid : Listener.Candid (Run.Traceable (E := GraphEngine) (P := P)) allowed)
    {s : Search GraphEngine P L} (listeners : ∀ l ∈ s.listeners, allowed l)
    (reporter : ∀ l ∈ s.reporter, allowed l) (fresh : s.run.engine.Fresh g)
    (byDepth : s.run.config.matchByMinDepth = true) (unasked : s.run.lastQuery = none) (budget : Nat) :
    Ensures (· = s) (DepthFirst.run budget) (fun _ t => t.run.Traceable)
      fun f t => f.mentionsUnvisited = false ∧ t.run.Traceable := by
  have looped : Proceeds (Run.Charted g) (·.mentionsUnvisited = false) allowed (Run.Charted g)
      (loop (·.run.done) .terminated (DepthFirst.iterate (E := GraphEngine) (P := P) (L := L)) budget false)
      fun _ => Run.Charted g := by
    apply Ensures.loop fun _ => Heeded allowed (Run.Charted g)
    · exact fun _ _ hs _ => hs
    · exact fun _ _ hs => hs.imp fun _ h => ⟨h, rfl⟩
    · intro limitReached
      have iterated := (DepthFirst.outline_charted (g := g)).ensures_iterate restrained candid
        (fun r h => h.traceable) limitReached
      exact iterated.of_imp fun _ hs => hs.1
  let start (r : Run GraphEngine P) : Prop :=
    r.engine.Fresh g ∧ r.config.matchByMinDepth = true ∧ r.lastQuery = none
  have ran : Proceeds (Run.Charted g) (·.mentionsUnvisited = false) allowed start
      (DepthFirst.run (E := GraphEngine) (P := P) (L := L) budget) fun _ => Run.Charted g :=
    DepthFirst.outline_charted.ensures_run restrained candid (fun r h => h.traceable) (fun r e _ h => h)
      (fun r h => .of_fresh h.1 h.2.1 h.2.2) looped
  apply ((Ensures.of_eq ran ⟨listeners, reporter, fresh, byDepth, unasked⟩).imp _).imp_fail
  · exact fun f t ht => ⟨ht.run.2, ht.run.1.traceable⟩
  · exact fun _ t ht => ht.run.traceable

end Listeners

theorem meddler_isModest : meddler.isModest := by
  simp [RuleListener.isModest, meddler, Deed.isModest, Action.isModest, Action.isMild]

theorem meddled_search_keeps_records : ∃ e s, GraphEngine.ofGraph .tangle = .ok e ∧
    Search.ofEngine (e.withRandomChoices 3) { continueOnViolation := true, matchByMinDepth := true } = .ok s ∧
    ∀ budget,
      let t : Search GraphEngine Subject (RuleListener Subject) :=
        (s.addProperty (.forbidden { states := [1] })).addListener meddler
      Ensures (· = t) (DepthFirst.run budget) (fun _ t => t.run.Traceable)
        fun f t => f.mentionsUnvisited = false ∧ t.run.Traceable := by
  obtain ⟨e, made⟩ : ∃ e, GraphEngine.ofGraph .tangle = .ok e := ⟨_, rfl⟩
  have fresh := (GraphEngine.fresh_ofGraph made).withRandomChoices 3
  refine ⟨e, .fresh (e.withRandomChoices 3) _, made, rfl, ?_⟩
  intro budget t
  have listeners : t.listeners = [meddler] := rfl
  have ready : t.run.engine.Fresh .tangle := fresh
  exact depth_first_search_keeps_records (RuleListener.restrained_of_isModest _)
    (RuleListener.candid _) (by simpa [listeners] using meddler_isModest)
    (by intro l member; cases member) ready rfl rfl budget

end Statewalk
