import Statewalk.Property.Forbidden
import Statewalk.Proofs.BestFirstRuns
import Statewalk.Proofs.DepthFirstRuns

/-! # Detection of forbidden states

An exhaustive search that watches for forbidden states finds one exactly if one can be reached, and
what it records of it is a route of the graph.
-/

namespace Statewalk

/-! ## Priorities -/

theorem signedWord_of_lt {n : Nat} (h : n < 2 ^ 63) : signedWord n = n := by
  have limit : wordLimit = 2 ^ 64 := rfl
  unfold signedWord
  rw [Int.bmod_eq_of_le] <;> omega

theorem BreadthFirst.total (E P : Type) : Heuristic.Total BreadthFirst E P :=
  fun r _ _ => ⟨signedWord r.depth, rfl⟩

theorem DeepestFirst.total (E P : Type) : Heuristic.Total DeepestFirst E P := by
  intro r h shallow
  have positive : signedWord r.depth ≠ -(Nat.pow 2 63 : Nat) := by
    have least : Nat.pow 2 63 = 2 ^ 63 := rfl
    rw [signedWord_of_lt shallow, least]
    omega
  have priority : Heuristic.priority r h = (negateSigned (signedWord r.depth), h) := rfl
  rw [priority, negateSigned, if_neg positive]
  exact ⟨_, rfl⟩

/-! ## Guards -/

theorem ForbiddenStates.guards {E : Type} [Engine E] (F : List StateId) (key : Nat) :
    Search.Guards E [({ key, property := { states := F } } : Watched ForbiddenStates)]
      (fun s => decide (s ∈ F)) := by
  refine ⟨?_, ?_⟩
  · intro r good
    have absent : Engine.stateId r.engine ∉ F := by simpa using good
    simp [Run.checkUntil, Checkable.check, checkState, absent]
  · intro s bad
    have present : s ∈ F := by simpa using bad
    refine ⟨[{ key, property := { states := F, hit := some s } }],
      { key, property := { states := F, hit := some s } }, ?_⟩
    intro r state
    simp [Run.checkUntil, Checkable.check, checkState, state, present]

/-! ## Verdicts -/

/-- The outcome of a search for forbidden states is right, and so is what was recorded: the path of a
    violation leads along edges of the graph, over states that are not forbidden, to one that is. -/
structure Detects (g : StateGraph) (F : List StateId) (o : Outcome)
    (r : Run GraphEngine ForbiddenStates) : Prop where
  violated : (∃ s ∈ F, g.Reachable s) →
    o.reason = .propertyViolated ∧ o.errors = 1 ∧ r.violations.length = 1
  exhausted : (∀ s ∈ F, ¬ g.Reachable s) →
    o.reason = .exhausted ∧ o.errors = 0 ∧ r.violations = []
  routes : ∀ v ∈ r.violations, ∃ ts tr, (r.summary v).path.transitions = ts ++ [tr] ∧
    g.Route (ts ++ [tr]) tr.state ∧ tr.state ∈ F ∧ ∀ t ∈ ts, t.state ∉ F

section Verdicts

variable {g : StateGraph} {F : List StateId} {A : Audience GraphEngine ForbiddenStates}
  {reason : StopReason} {q : Run GraphEngine ForbiddenStates} {m : Memory} {j : Journal}

theorem Run.Exhausted.detects (h : q.Exhausted g (fun s => decide (s ∈ F))) :
    Detects g F (q.outcome .exhausted) { q.concluded A with memory := m, journal := j } := by
  have violations : ({ q.concluded A with memory := m, journal := j } :
      Run GraphEngine ForbiddenStates).violations = [] := h.violations
  refine ⟨?_, ?_, ?_⟩
  · rintro ⟨s, hs, reachable⟩
    have good := h.good s (h.ledger.mem_visited_iff.2 reachable)
    simp [hs] at good
  · intro _
    exact ⟨rfl, by rw [outcome, h.violations]; rfl, violations⟩
  · intro v hv
    rw [violations] at hv
    cases hv

theorem Run.Caught.detects (h : q.Caught g (fun s => decide (s ∈ F))) :
    Detects g F (q.outcome .propertyViolated) { q.concluded A with memory := m, journal := j } := by
  obtain ⟨w, recorded⟩ := h.violation
  obtain ⟨ts, tr, path, route, bad, good⟩ := h.route
  have violations : ({ q.concluded A with memory := m, journal := j } :
      Run GraphEngine ForbiddenStates).violations = [{ id := 1, evidence := .live w }] := recorded
  have forbidden : tr.state ∈ F := by simpa using bad
  refine ⟨?_, ?_, ?_⟩
  · intro _
    refine ⟨rfl, ?_, ?_⟩
    · rw [outcome, recorded]
      rfl
    · rw [violations]
      rfl
  · intro none
    exact absurd route.reachable (none _ forbidden)
  · intro v hv
    rw [violations, List.mem_singleton] at hv
    subst hv
    exact ⟨ts, tr, path, route, forbidden, fun t ht => by simpa using good t ht⟩

theorem Run.Stopped.detects (h : q.Stopped g (fun s => decide (s ∈ F)) reason) {c : Config} {L : Type}
    {ls : List L} {t : Search GraphEngine ForbiddenStates L} (mirrors : Mirrors c ls t (q.concluded A)) :
    Detects g F (q.outcome reason) t.run := by
  obtain ⟨m, j, eq, -⟩ := mirrors.run_eq
  rw [eq]
  cases h with
  | exhausted h => exact h.detects
  | caught h => exact h.detects

end Verdicts

/-! ## Searches -/

/-- A fresh exhaustive search for forbidden states, depth-first or best-first with any heuristic, over
    a valid graph and with its edges in any order, comes to its end and gives the right answer. -/
theorem exhaustive_search_detects {L : Type} [Listener GraphEngine ForbiddenStates L] {g : StateGraph}
    {e : GraphEngine} {F : List StateId} (valid : g.validate = .ok ()) (small : g.size < 2 ^ 63)
    (fresh : GraphEngine.Fresh g e) (outside : 0 ∉ F) :
    ∃ s : Search GraphEngine ForbiddenStates L, Search.ofEngine e {} = .ok s ∧
      (∃ o t, Ends DepthFirst.run (s.addProperty { states := F }) o t ∧ Detects g F o t.run) ∧
      ∀ (H : Type) [Heuristic H GraphEngine ForbiddenStates],
        Heuristic.Total H GraphEngine ForbiddenStates → ∀ b : BestFirst H GraphEngine,
          ∃ o x, Ends BestFirst.run { strategy := b, search := s.addProperty { states := F } } o x ∧
            Detects g F o x.search.run := by
  let s : Search GraphEngine ForbiddenStates L := .fresh e {}
  let watching := s.addProperty { states := F }
  have start : watching.run.AtStart g {} [{ key := 0, property := { states := F } }]
      (fun s => decide (s ∈ F)) :=
    .of_fresh fresh (by simpa using outside) rfl rfl
  have mirrors : Mirrors {} [] watching watching.run :=
    Mirrors.rfl_of_unlimited (s := watching) (Memory.unlimited_configure rfl) rfl rfl rfl
  have hears : (Audience.nobody : Audience GraphEngine ForbiddenStates).Hears {} ([] : List L) :=
    Audience.nobody_hears {}
  have guards := ForbiddenStates.guards (E := GraphEngine) F 0
  have exhaustive := Config.exhaustive_default small
  refine ⟨s, rfl, ?_, ?_⟩
  · obtain ⟨reason, q, t, ends, finished, mirrors'⟩ :=
      DepthFirst.ends_graph hears guards valid exhaustive small start mirrors
    exact ⟨_, t, ends, finished.stopped.detects mirrors'⟩
  · intro H _ total b
    obtain ⟨reason, q, x, ends, finished, -, mirrors'⟩ :=
      BestFirst.ends_graph hears guards valid exhaustive small total start mirrors b
    exact ⟨_, x, ends, (finished.stopped exhaustive.single).detects mirrors'⟩

theorem tangle_detected : ∃ e, GraphEngine.ofGraph .tangle = .ok e ∧
    (∃ s : Search GraphEngine ForbiddenStates Statistics,
      Search.ofEngine (e.withRandomChoices 7) {} = .ok s ∧
      (∃ o t, Ends DepthFirst.run (s.addProperty { states := [3, 2] }) o t ∧
        o.reason = .propertyViolated ∧ o.errors = 1) ∧
      ∃ o x, Ends BestFirst.run
          { strategy := { heuristic := (⟨⟩ : DeepestFirst) }
            search := s.addProperty { states := [3, 2] } } o x ∧
        o.reason = .propertyViolated ∧ o.errors = 1) ∧
    ∃ s : Search GraphEngine ForbiddenStates Statistics, Search.ofEngine e {} = .ok s ∧
      ∃ o t, Ends DepthFirst.run (s.addProperty { states := [3] }) o t ∧
        o.reason = .exhausted ∧ o.errors = 0 := by
  have valid : StateGraph.tangle.validate = .ok () := by decide
  have small : StateGraph.tangle.size < 2 ^ 63 := by decide
  obtain ⟨e, made⟩ : ∃ e, GraphEngine.ofGraph .tangle = .ok e := ⟨_, rfl⟩
  have fresh := GraphEngine.fresh_ofGraph made
  refine ⟨e, made, ?_, ?_⟩
  · obtain ⟨s, created, ⟨o, t, ends, detects⟩, bestFirst⟩ := exhaustive_search_detects
      (L := Statistics) (F := [3, 2]) valid small (fresh.withRandomChoices 7) (by decide)
    obtain ⟨o', x, ends', detects'⟩ :=
      bestFirst DeepestFirst (DeepestFirst.total _ _) { heuristic := ⟨⟩ }
    have reachable : ∃ s ∈ [3, 2], StateGraph.tangle.Reachable s :=
      ⟨2, by decide, StateGraph.reachable_tangle⟩
    obtain ⟨reason, errors, -⟩ := detects.violated reachable
    obtain ⟨reason', errors', -⟩ := detects'.violated reachable
    exact ⟨s, created, ⟨o, t, ends, reason, errors⟩, o', x, ends', reason', errors'⟩
  · obtain ⟨s, created, ⟨o, t, ends, detects⟩, -⟩ := exhaustive_search_detects
      (L := Statistics) (F := [3]) valid small fresh (by decide)
    obtain ⟨reason, errors, -⟩ := detects.exhausted (by simpa using StateGraph.not_reachable_tangle)
    exact ⟨s, created, o, t, ends, reason, errors⟩

end Statewalk
