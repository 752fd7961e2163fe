import Statewalk.Proofs.ContinuedRuns

/-! # Reports of forbidden states

A search for forbidden states that goes on after violations reports the edges into them: each edge
that can be taken without a forbidden state on the way, once and no other, whatever the strategy.
-/

namespace Statewalk

/-- The summary is about the edge out of its source: the path leads along edges of the graph and over
    states that are not forbidden to the source and ends with the edge, and the message names the state
    that was entered. -/
structure Summary.Describes (g : StateGraph) (F : List StateId) (v : Summary) (breach : StateId × Edge) :
    Prop where
  path : ∃ ts, v.path.transitions = ts ++ [breach.2.transition] ∧ g.Route ts breach.1 ∧
    ∀ t ∈ ts, t.state ∉ F
  message : v.message = some ("reached forbidden state " ++ toString breach.2.target)

/-- The run went through the whole graph, and its violations are about the edges into forbidden states,
    each edge in one of them; they are numbered in order, and each was announced when it was the last. -/
structure Reports (g : StateGraph) (F : List StateId) (o : Outcome)
    (r : Run GraphEngine ForbiddenStates) : Prop where
  reason : o.reason = .exhausted
  errors : o.errors = (g.breaches F).length
  ids : r.summaries.map (·.id) = List.range' 1 o.errors
  edges : ∃ xs, xs.Perm (g.breaches F) ∧ List.Forall₂ (Summary.Describes g F) r.summaries xs
  announced : r.journal.announcedViolations = List.range' 1 o.errors

section Verdicts

variable {g : StateGraph} {F : List StateId} {A : Audience GraphEngine ForbiddenStates}
  {r q : Run GraphEngine ForbiddenStates}

theorem Violation.Tells.describes {v : Violation ForbiddenStates} {x : Crossing} (h : v.Tells g F x) :
    (r.summary v).Describes g F x.along := by
  obtain ⟨path, threads, ts, evidence, transitions, route, allowed⟩ := h
  have summary : r.summary v = {
      id := v.id
      property := "forbidden_states"
      message := some ("reached forbidden state " ++ toString x.target)
      path, threads } := by
    rw [Run.summary, evidence]
    rfl
  rw [summary]
  exact ⟨⟨ts, transitions, route, allowed⟩, rfl⟩

theorem Run.Reported.reports (h : q.Reported g F) (valid : g.validate = .ok ()) {c : Config} {L : Type}
    {ls : List L} {t : Search GraphEngine ForbiddenStates L} (mirrors : Mirrors c ls t (q.concluded A)) :
    Reports g F (q.outcome .exhausted) t.run := by
  have recorded := h.recorded
  have violations : t.run.violations = q.violations := by
    obtain ⟨m, j, eq, -⟩ := mirrors.run_eq
    rw [eq]
    rfl
  have announced : t.run.journal.announcedViolations = q.journal.announcedViolations := by
    rw [Journal.announcedViolations, mirrors.bulletins]
    exact announcedViolations_said .searchFinished (by decide)
  have ids : t.run.summaries.map (·.id) = q.violations.map (·.id) := by
    rw [summaries, violations, List.map_map]
    apply List.map_congr_left
    intro v _
    cases evidence : v.evidence <;> simp [Run.summary, evidence]
  have entered := h.ledger.perm_breaches valid
  refine ⟨rfl, ?_, ?_, ⟨_, entered, ?_⟩, ?_⟩
  · rw [← entered.length_eq, List.length_map]
    exact recorded.tells.length_eq
  · rw [ids]
    exact recorded.ids
  · rw [summaries, violations, List.forall₂_map_left_iff, List.forall₂_map_right_iff]
    exact recorded.tells.imp fun _ _ tells => tells.describes
  · rw [announced, recorded.announced]
    exact recorded.ids

end Verdicts

/-! ## Searches -/

/-- A fresh search for forbidden states that goes on after violations, depth-first or best-first with any
    heuristic, over a valid graph and with its edges in any order, comes to its end and reports the edges
    into forbidden states.  How many it reports depends on the graph alone. -/
theorem continued_search_reports {L : Type} [Listener GraphEngine ForbiddenStates L] {g : StateGraph}
    {e : GraphEngine} {F : List StateId} (valid : g.validate = .ok ()) (small : g.size < 2 ^ 63)
    (fresh : GraphEngine.Fresh g e) (outside : 0 ∉ F) :
    ∃ s : Search GraphEngine ForbiddenStates L,
      Search.ofEngine e { continueOnViolation := true } = .ok s ∧
      (∃ o t, Ends DepthFirst.run (s.addProperty { states := F }) o t ∧ Reports g F o t.run) ∧
      ∀ (H : Type) [Heuristic H GraphEngine ForbiddenStates],
        Heuristic.Total H GraphEngine ForbiddenStates → ∀ b : BestFirst H GraphEngine,
          ∃ o x, Ends BestFirst.run { strategy := b, search := s.addProperty { states := F } } o x ∧
            Reports g F o x.search.run := by
  let c : Config := { continueOnViolation := true }
  let s : Search GraphEngine ForbiddenStates L := .fresh e c
  let watching := s.addProperty { states := F }
  have start : watching.run.AtStart g c [ForbiddenStates.alone F] (fun s => decide (s ∈ F)) :=
    .of_fresh fresh (by simpa using outside) rfl rfl
  have mirrors : Mirrors c [] watching watching.run :=
    Mirrors.rfl_of_unlimited (s := watching) (Memory.unlimited_configure rfl) rfl rfl rfl
  have hears : (Audience.nobody : Audience GraphEngine ForbiddenStates).Hears c ([] : List L) :=
    Audience.nobody_hears c
  have continued : c.Continued g.size := Config.continued_default small
  refine ⟨s, rfl, ?_, ?_⟩
  · obtain ⟨budget, attains⟩ :=
      DepthFirst.attains_run_continued hears valid continued small start rfl
    obtain ⟨_, t, _, ends, mirrors', _, q, ⟨rfl, reported⟩, rfl, rfl⟩ :=
      attains.ends DepthFirst.steady_run mirrors
    exact ⟨_, t, ends, reported.reports valid mirrors'⟩
  · intro H _ total b
    obtain ⟨budget, attains⟩ :=
      BestFirst.attains_run_continued (b := b) hears valid continued small total start rfl
    obtain ⟨_, x, _, ends, tracks, _, q, ⟨rfl, reported⟩, rfl, rfl⟩ :=
      attains.ends BestFirst.steady_run (s := { strategy := b, search := watching }) ⟨rfl, mirrors⟩
    exact ⟨_, x, ends, reported.reports valid tracks.2⟩

namespace StateGraph

/-- With the second state forbidden, only the edges of the initial state can be taken. -/
theorem exposed_tangle {s : StateId} : tangle.Exposed [1] s ↔ s = 0 := by
  constructor
  · rintro ⟨reachable, -, allowed⟩
    have near : ∀ s < 2, s ∉ [1] → ∀ e ∈ tangle.edges s, e.target < 2 := by decide
    have lt : s < 2 := by
      clear allowed
      induction reachable with
      | root => decide
      | step _ _ allowed edge ih => exact near _ ih allowed _ edge
    have others : ∀ s < 2, s ∉ [1] → s = 0 := by decide
    exact others s lt allowed
  · rintro rfl
    exact ⟨.root, rfl, by decide⟩

theorem length_breaches_tangle : (tangle.breaches [1]).length = 2 := by
  classical
  have states : ((List.range tangle.size).filter fun s => decide (tangle.Exposed [1] s)) = [0] := by
    simp only [exposed_tangle]
    rfl
  rw [breaches, states]
  rfl

end StateGraph

/-- Two edges lead from the initial state into the forbidden one: two violations are found, whatever
    the strategy, and the loop at the initial state makes no difference. -/
theorem tangle_reported : ∃ e, GraphEngine.ofGraph .tangle = .ok e ∧
    ∃ s : Search GraphEngine ForbiddenStates Statistics,
      Search.ofEngine (e.withRandomChoices 7) { continueOnViolation := true } = .ok s ∧
      (∃ o t, Ends DepthFirst.run (s.addProperty { states := [1] }) o t ∧
        o.reason = .exhausted ∧ o.errors = 2 ∧ t.run.journal.announcedViolations = [1, 2]) ∧
      ∃ o x, Ends BestFirst.run
          { strategy := { heuristic := (⟨⟩ : DeepestFirst) }
            search := s.addProperty { states := [1] } } o x ∧
        o.reason = .exhausted ∧ o.errors = 2 ∧ x.search.run.journal.announcedViolations = [1, 2] := by
  have valid : StateGraph.tangle.validate = .ok () := by decide
  have small : StateGraph.tangle.size < 2 ^ 63 := by decide
  obtain ⟨e, made⟩ : ∃ e, GraphEngine.ofGraph .tangle = .ok e := ⟨_, rfl⟩
  have fresh := (GraphEngine.fresh_ofGraph made).withRandomChoices 7
  obtain ⟨s, created, ⟨o, t, ends, reports⟩, bestFirst⟩ :=
    continued_search_reports (L := Statistics) (F := [1]) valid small fresh (by decide)
  obtain ⟨o', x, ends', reports'⟩ := bestFirst DeepestFirst (DeepestFirst.total _ _) { heuristic := ⟨⟩ }
  have errors := reports.errors.trans StateGraph.length_breaches_tangle
  have errors' := reports'.errors.trans StateGraph.length_breaches_tangle
  have announced := reports.announced
  have announced' := reports'.announced
  rw [errors] at announced
  rw [errors'] at announced'
  exact ⟨e, made, s, created, ⟨o, t, ends, reports.reason, errors, announced⟩,
    o', x, ends', reports'.reason, errors', announced'⟩

end Statewalk
