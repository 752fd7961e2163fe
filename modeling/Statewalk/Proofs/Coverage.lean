import Mathlib.Algebra.BigOperators.Group.Finset.Basic
import Statewalk.Proofs.Detection

/-! # Coverage

An exhaustive search without properties goes along every edge that can be taken, and along none twice,
and a statistics listener counts exactly that: the states that are found and the steps into states
that were known.  The counters follow the transitions that were taken from move to move; how many of
these there are is read off the closed ledger at the end.
-/

namespace Statewalk

open GraphEngine (Enters)

/-! ## Closed ledgers -/

/-- The transitions out of the reachable states were taken, each once and no other, and each reachable
    state but the initial one was found new once. -/
structure Covers (g : StateGraph) (crossings : List Crossing) : Prop where
  taken : ∀ s, g.Reachable s →
    ((crossings.filter (·.source = s)).map Crossing.transition).Perm (g.outgoing s)
  sources : ∀ x ∈ crossings, g.Reachable x.source
  found : ∀ s, g.Reachable s → s ≠ 0 → crossings.countP (fun x => x.isNew && x.target = s) = 1
  targets : ∀ x ∈ crossings, x.isNew = true → x.target ≠ 0

namespace Ledger

variable {g : StateGraph} {visited : List StateId} {crossings : List Crossing}

theorem filter_steps {s t : StateId} (apart : t ≠ s) :
    (g.steps t).filter (fun step => step.1 = s) = [] := by
  simp [StateGraph.steps, List.filter_map, Function.comp_def, apart]

/-- Among the steps out of different states, those out of one of them. -/
theorem filter_flatMap_steps (nodup : visited.Nodup) {s : StateId} (hs : s ∈ visited) :
    ((visited.flatMap g.steps).filter (fun step => step.1 = s)).Perm (g.steps s) := by
  -- The state occurs once, so all other steps start elsewhere.
  have split : visited.Perm (s :: visited.erase s) := List.perm_cons_erase hs
  have others : ((visited.erase s).flatMap g.steps).filter (fun step => step.1 = s) = [] := by
    rw [List.filter_flatMap, List.flatMap_eq_nil_iff]
    intro t ht
    exact filter_steps ((List.Nodup.mem_erase_iff nodup).1 ht).1
  have own : (g.steps s).filter (fun step => step.1 = s) = g.steps s := by
    simp [StateGraph.steps, List.filter_map, Function.comp_def]
  refine ((split.flatMap_right g.steps).filter _).trans ?_
  rw [List.flatMap_cons, List.filter_append, others, own, List.append_nil]

/-- The states that were found new are the visited ones but the first. -/
theorem found_perm (h : Ledger g visited crossings []) :
    ((crossings.filter (·.isNew)).map Crossing.target).Perm (visited.erase 0) := by
  have news := h.news.erase 0
  rw [List.erase_cons_head] at news
  exact news.symm

theorem covers (h : Ledger g visited crossings []) : Covers g crossings := by
  have found := h.found_perm
  refine ⟨?_, ?_, ?_, ?_⟩
  · intro s reachable
    have visit := h.mem_visited_iff.2 reachable
    have steps := (h.taken.filter (fun step => step.1 = s)).trans (filter_flatMap_steps h.nodup visit)
    have transitions := steps.map Prod.snd
    rw [List.filter_map, List.map_map, StateGraph.steps, List.map_map] at transitions
    exact transitions.trans (.of_eq (List.map_id _))
  · intro x hx
    obtain ⟨s, hs, step⟩ := List.mem_flatMap.1 (h.taken.mem_iff.1 (List.mem_map_of_mem hx))
    obtain ⟨tr, -, eq⟩ := List.mem_map.1 step
    have source : s = x.source := congrArg Prod.fst eq
    exact source ▸ h.reachable s hs
  · intro s reachable other
    -- The states that were found are the visited ones but the first, each of which occurs once.
    have once : (visited.erase 0).count s = 1 := by
      rw [List.count_erase_of_ne other]
      exact List.count_eq_one_of_mem h.nodup (h.mem_visited_iff.2 reachable)
    rw [← found.count_eq, List.count, List.countP_map, List.countP_filter] at once
    rw [← once]
    apply List.countP_congr
    intro x _
    simp [Bool.and_comm]
  · intro x hx isNew root
    have mem : x.target ∈ visited.erase 0 :=
      found.mem_iff.1 (List.mem_map_of_mem (List.mem_filter.2 ⟨hx, isNew⟩))
    exact ((List.Nodup.mem_erase_iff h.nodup).1 mem).1 root

/-! ## Numbers -/

variable (valid : g.validate = .ok ())

include valid

theorem toFinset_visited (h : Ledger g visited crossings []) : visited.toFinset = g.reach := by
  ext s
  rw [List.mem_toFinset, h.mem_visited_iff, StateGraph.mem_reach valid]

theorem countP_isNew (h : Ledger g visited crossings []) :
    crossings.countP (·.isNew) = g.reach.card - 1 := by
  have length := h.news.length_eq
  rw [List.length_cons, List.length_map, ← List.countP_eq_length_filter] at length
  rw [← h.toFinset_visited valid, List.toFinset_card_of_nodup h.nodup, length]
  rfl

/-- As many transitions were taken as the reachable states that do not end have edges. -/
theorem length_crossings (h : Ledger g visited crossings []) :
    crossings.length = ∑ s ∈ g.reach with g.isEnd s = false, (g.edges s).length := by
  have degree (s : StateId) :
      (g.steps s).length = if g.isEnd s = false then (g.edges s).length else 0 := by
    cases isEnd : g.isEnd s <;> simp [StateGraph.steps, StateGraph.outgoing, isEnd]
  calc crossings.length
      = (visited.flatMap g.steps).length := by rw [← h.taken.length_eq, List.length_map]
    _ = (visited.map fun s => (g.steps s).length).sum := List.length_flatMap
    _ = ∑ s ∈ g.reach, (g.steps s).length := by
      rw [← h.toFinset_visited valid, List.sum_toFinset _ h.nodup]
    _ = _ := by
      rw [Finset.sum_filter]
      exact Finset.sum_congr rfl fun s _ => degree s

/-- As many states were found that do not end as there are. -/
theorem countP_lasting (h : Ledger g visited crossings []) :
    crossings.countP (fun x => x.isNew && !g.isEnd x.target) =
      (g.reach.filter fun s => s ≠ 0 ∧ g.isEnd s = false).card := by
  have states : ((visited.erase 0).filter fun s => !g.isEnd s).toFinset =
      g.reach.filter fun s => s ≠ 0 ∧ g.isEnd s = false := by
    ext s
    rw [List.mem_toFinset, List.mem_filter, List.Nodup.mem_erase_iff h.nodup, h.mem_visited_iff,
      Finset.mem_filter, StateGraph.mem_reach valid, Bool.not_eq_true']
    tauto
  have nodup : ((visited.erase 0).filter fun s => !g.isEnd s).Nodup := (h.nodup.erase 0).filter _
  rw [← states, List.toFinset_card_of_nodup nodup, ← List.countP_eq_length_filter,
    ← h.found_perm.countP_eq, List.countP_map, List.countP_filter]
  apply List.countP_congr
  intro x _
  simp [Bool.and_comm]

end Ledger

/-! ## Counters -/

namespace Run

variable {P : Type} {g : StateGraph} {r : Run GraphEngine P} {top : Frame} {rest : List Frame}
  {edge : Edge} {backtracked stored restored : Nat}

/-- The run has one tally, which counts the transitions into new and into known states and has the given
    numbers of steps back, of states that were stored and of states that were restored. -/
def Tallied (r : Run GraphEngine P) (backtracked stored restored : Nat) : Prop :=
  ∃ t, r.tallies = [t] ∧ t.newStates = r.journal.crossings.countP (·.isNew) ∧
    t.visitedStates = r.journal.crossings.countP (!·.isNew) ∧
    t.backtracked = backtracked ∧ t.stored = stored ∧ t.restored = restored

namespace Tallied

theorem started {t : Tally} (tallies : r.tallies = [t]) (crossings : r.journal.crossings = []) :
    (r.said (Statistics.audience 0) .searchStarted).Tallied 0 0 0 := by
  refine ⟨({} : Tally).atDepth r.depth, ?_, ?_, ?_, rfl, rfl, rfl⟩
  · show r.tallies.modify 0 _ = _
    rw [tallies]
    rfl
  · rw [crossings_said, crossings]
    rfl
  · rw [crossings_said, crossings]
    rfl

theorem onward (h : r.Tallied backtracked stored restored) (enters : Enters g r.engine top rest edge) :
    (r.onward (Statistics.audience 0)).Tallied backtracked stored restored := by
  obtain ⟨t, tallies, newStates, visitedStates, rfl, rfl, rfl⟩ := h
  have isNew : Engine.isNew (Engine.forward r.engine).2 = decide (edge.target ∉ r.engine.visited) := by
    rw [enters.forward]
    rfl
  have counted : (r.onward (Statistics.audience 0)).tallies = [Statistics.countState
      (decide (edge.target ∉ r.engine.visited)) (Engine.isEnd (Engine.forward r.engine).2)
      (t.atDepth (r.depth + 1))] := by
    rw [← isNew]
    show r.tallies.modify 0 _ = _
    rw [tallies]
    rfl
  refine ⟨_, counted, ?_⟩
  rw [crossings_onward enters, List.countP_append, List.countP_append, ← newStates, ← visitedStates]
  -- The listener asks the engine, whose answer is the one that the crossing has.
  unfold Statistics.countState
  by_cases seen : edge.target ∈ r.engine.visited <;>
    cases Engine.isEnd (Engine.forward r.engine).2 <;> simp [seen, Tally.atDepth]

theorem congr {q : Run GraphEngine P} (h : r.Tallied backtracked stored restored)
    (tallies : q.tallies = r.tallies) (crossings : q.journal.crossings = r.journal.crossings) :
    q.Tallied backtracked stored restored := by
  unfold Tallied
  rw [tallies, crossings]
  exact h

/-- Events that neither start the run nor tell of a step forward count themselves. -/
theorem said (h : r.Tallied backtracked stored restored) (event : Event)
    (later : event ≠ .searchStarted) (other : event ≠ .stateAdvanced) :
    (r.said (Statistics.audience 0) event).Tallied
      (backtracked + (event == .stateBacktracked).toNat) (stored + (event == .stateStored).toNat)
      (restored + (event == .stateRestored).toNat) := by
  obtain ⟨t, tallies, newStates, visitedStates, rfl, rfl, rfl⟩ := h
  have counted : (r.said (Statistics.audience 0) event).tallies = [Statistics.count event r.depth t] := by
    show r.tallies.modify 0 (Statistics.tick event _) = _
    rw [tallies, Statistics.tick, if_neg other]
    rfl
  refine ⟨_, counted, ?_⟩
  rw [crossings_said, ← newStates, ← visitedStates]
  cases event <;> first | exact ⟨rfl, rfl, rfl, rfl, rfl⟩ | contradiction

theorem halted (h : r.Tallied backtracked stored restored)
    (stuck : Engine.forward r.engine = (false, r.engine.stall)) :
    (r.halted (Statistics.audience 0)).Tallied backtracked stored restored := by
  have crossings : r.stepped.journal.crossings = r.journal.crossings :=
    (crossings_said .stateProcessed).symm.trans (crossings_halted (A := Statistics.audience 0) stuck)
  exact (h.congr (q := r.stepped) rfl crossings).said .stateProcessed nofun nofun

theorem retreated (h : r.Tallied backtracked stored restored) :
    (r.retreated (Statistics.audience 0)).Tallied (backtracked + 1) stored restored := by
  let back : Run GraphEngine P := { r.forgetQuery.stepBack.2 with depth := r.depth - 1 }
  have crossings : back.journal.crossings = r.journal.crossings :=
    (crossings_said .stateBacktracked).symm.trans (crossings_retreated (A := Statistics.audience 0))
  exact (h.congr (q := back) rfl crossings).said .stateBacktracked nofun nofun

theorem resumed (h : r.Tallied backtracked stored restored)
    (snapshot : Snapshot (Engine.Saved GraphEngine)) :
    (r.resumed (Statistics.audience 0) snapshot).Tallied backtracked stored (restored + 1) := by
  let back : Run GraphEngine P := { r with
    lastQuery := none
    atViolation := false
    engine := (Engine.restore snapshot r.engine).2
    depth := snapshot.pathLength
    journal := r.journal.record (.moved .restore r.depth true) }
  have crossings : back.journal.crossings = r.journal.crossings :=
    (crossings_said .stateRestored).symm.trans (crossings_resumed (A := Statistics.audience 0) snapshot)
  exact (h.congr (q := back) rfl crossings).said .stateRestored nofun nofun

end Tallied

end Run

/-! ## Counters along a run -/

namespace DepthFirst

variable {P : Type} {g : StateGraph} {c : Config} {ps : List (Watched P)} {bad : StateId → Bool}
  {start r : Run GraphEngine P}

/-- Every transition that was taken and is not on the path any more was taken back. -/
def Balanced (r : Run GraphEngine P) : Prop :=
  ∃ backtracked, r.Tallied backtracked 0 0 ∧ backtracked + r.depth = r.journal.crossings.length

theorem Moves.balanced {p q : Phase × Run GraphEngine P}
    (moves : Moves g c ps [] (Statistics.audience 0) p q) (h : Balanced p.2) : Balanced q.2 := by
  obtain ⟨backtracked, tallied, balance⟩ := h
  cases moves with
  | stayed => exact ⟨backtracked, tallied, balance⟩
  | onward _ enters =>
    refine ⟨backtracked, tallied.onward enters, ?_⟩
    rw [Run.crossings_onward enters, List.length_append, ← balance]
    rfl
  | halted _ _ _ stuck =>
    refine ⟨backtracked, tallied.halted stuck, ?_⟩
    rw [Run.crossings_halted stuck]
    exact balance
  | struck _ _ forbidden _ _ _ => nomatch forbidden
  | @retreated r _ _ _ head _ frames =>
    refine ⟨backtracked + 1, Run.Tallied.retreated (r := r.obeying) tallied, ?_⟩
    rw [Run.crossings_retreated, ← balance]
    have depth := head.depth
    rw [frames] at depth
    simp only [List.length_cons] at depth
    -- One step more was taken back, and the path is one shorter.
    show backtracked + 1 + (r.depth - 1) = backtracked + r.depth
    omega
  | @refused r _ _ _ _ =>
    have crossings := Run.crossings_stepBack r.obeying
    exact ⟨backtracked, tallied.congr rfl crossings, crossings ▸ balance⟩

theorem Finished.balanced {reason : StopReason}
    (h : Finished g c ps (fun _ => false) (Statistics.audience 0) start reason r) (base : Balanced start) :
    reason = .exhausted ∧ r.depth = 0 ∧ r.Exhausted g (fun _ => false) ∧ Balanced r := by
  obtain ⟨rfl, depth, exhausted, reached⟩ := h.reached_ended
  have balanced := reached.induction (J := fun _ => Balanced) base fun _ _ ih moves => moves.balanced ih
  exact ⟨rfl, depth, exhausted, balanced⟩

end DepthFirst

namespace BestFirst

variable {H P : Type} [Heuristic H GraphEngine P] {g : StateGraph} {c : Config} {ps : List (Watched P)}
  {bad : StateId → Bool} {p q : BestFirst H GraphEngine × Run GraphEngine P}

/-- The states that were found and do not end were stored, besides the initial one; those that were
    neither restored nor are queued are the initial one. -/
def Balanced (g : StateGraph) (p : BestFirst H GraphEngine × Run GraphEngine P) : Prop :=
  ∃ backtracked restored, p.2.Tallied backtracked p.1.stored restored ∧
    p.1.stored = 1 + p.2.journal.crossings.countP (fun x => x.isNew && !g.isEnd x.target) ∧
    restored + p.1.frontier.size + 1 = p.1.stored

theorem countP_lasting_onward {A : Audience GraphEngine P} {r : Run GraphEngine P} {top : Frame}
    {rest : List Frame} {edge : Edge} (enters : Enters g r.engine top rest edge) :
    (r.onward A).journal.crossings.countP (fun x => x.isNew && !g.isEnd x.target) =
      r.journal.crossings.countP (fun x => x.isNew && !g.isEnd x.target) +
        (decide (edge.target ∉ r.engine.visited) && !g.isEnd edge.target).toNat := by
  rw [Run.crossings_onward enters, List.countP_append, List.countP_singleton]
  show _ + (if (decide (edge.target ∉ r.engine.visited) && !g.isEnd edge.target) = true then 1 else 0) = _
  cases decide (edge.target ∉ r.engine.visited) && !g.isEnd edge.target <;> rfl

theorem Moves.balanced (moves : Moves g c ps [] (Statistics.audience 0) p q) (h : Balanced g p) :
    Balanced g q := by
  obtain ⟨backtracked, restored, tallied, lasting, queued⟩ := h
  cases moves with
  | @passed b r top rest edge _ enters _ passing =>
    refine ⟨backtracked + 1, restored, (tallied.onward enters).retreated, ?_, queued⟩
    -- A successor that is passed over is known or ends here.
    have skipped : (decide (edge.target ∉ r.engine.visited) && !g.isEnd edge.target) = false := by
      revert passing
      cases g.isEnd edge.target <;> simp
    rw [Run.crossings_retreated, countP_lasting_onward enters, skipped]
    exact lasting
  | struck _ _ forbidden _ _ => nomatch forbidden
  | @stored b r top rest edge i h _ enters _ continues unseen _ =>
    have told : (((r.onward (Statistics.audience 0)).judged true r.depths).said
        (Statistics.audience 0) .stateStored).Tallied backtracked (b.stored + 1) restored :=
      Run.Tallied.said (r := (r.onward (Statistics.audience 0)).judged true r.depths)
        (tallied.onward enters) .stateStored nofun nofun
    refine ⟨backtracked + 1, restored, told.retreated, ?_, ?_⟩
    · rw [Run.crossings_retreated, Run.crossings_said]
      show b.stored + 1 = 1 + (r.onward _).journal.crossings.countP _
      rw [countP_lasting_onward enters, decide_eq_true unseen, continues, lasting]
      rfl
    · simp only [enqueued, Frontier.size_insert] at queued ⊢
      omega
  | completed _ stuck =>
    refine ⟨backtracked, restored, tallied.halted stuck, ?_, queued⟩
    rw [Run.crossings_halted stuck]
    exact lasting
  | @resumed b r key best others _ entries =>
    refine ⟨backtracked, restored + 1, tallied.resumed best.snapshot, ?_, ?_⟩
    · rw [Run.crossings_resumed]
      exact lasting
    · -- One state less is queued, and one more was restored.
      simp only [Frontier.size, entries, List.length_cons] at queued ⊢
      omega

theorem Finished.balanced [Property P] {start : Run GraphEngine P} {reason : StopReason}
    (h : Finished g c ps (fun _ => false) (Statistics.audience 0) start reason p)
    (base : ∀ heuristic : H, Balanced g (started heuristic, start)) :
    reason = .exhausted ∧ p.1.frontier.entries = [] ∧ p.2.Exhausted g (fun _ => false) ∧
      Balanced g p := by
  cases h with
  | exhausted underway rested empty reached =>
    have balanced := reached.induction base fun _ _ ih moves => moves.balanced ih
    exact ⟨rfl, empty, rested.exhausted underway empty, balanced⟩
  | caught _ _ _ violated _ _ _ => cases violated

end BestFirst

/-! ## Searches -/

/-- The search with a statistics listener that keeps a tally of its own. -/
def Search.withStatistics {E P : Type} (s : Search E P Statistics) : Search E P Statistics :=
  addListener { tally := s.run.addTally.1 } { s with run := s.run.addTally.2 }

/-- The run covered the graph, and its tally says how many states it found and how many steps it took. -/
structure Run.Covered {P : Type} (g : StateGraph) (r : Run GraphEngine P) : Prop where
  covers : Covers g r.journal.crossings
  newStates : (r.tally 0).newStates = g.reach.card - 1
  steps : (r.tally 0).newStates + (r.tally 0).visitedStates =
    ∑ s ∈ g.reach with g.isEnd s = false, (g.edges s).length

section Conclusions

variable {P L : Type} {g : StateGraph} {c : Config} {ls : List L} {t : Search GraphEngine P L}
  {q : Run GraphEngine P} {backtracked stored restored : Nat}

theorem Run.Tallied.tally_eq (h : q.Tallied backtracked stored restored)
    (mirrors : Mirrors c ls t (q.concluded (Statistics.audience 0))) :
    (t.run.tally 0).newStates = q.journal.crossings.countP (·.isNew) ∧
      (t.run.tally 0).visitedStates = q.journal.crossings.countP (!·.isNew) ∧
      (t.run.tally 0).backtracked = backtracked ∧ (t.run.tally 0).stored = stored ∧
      (t.run.tally 0).restored = restored := by
  obtain ⟨m, j, eq, -⟩ := mirrors.run_eq
  obtain ⟨tally, tallies, newStates, visitedStates, counters⟩ :=
    h.said .searchFinished nofun nofun
  have same : t.run.tally 0 = tally := by
    rw [eq]
    show ((q.said (Statistics.audience 0) .searchFinished).tallies[0]?).getD {} = tally
    rw [tallies]
    rfl
  rw [same, ← Run.crossings_said (A := Statistics.audience 0) (r := q) .searchFinished]
  exact ⟨newStates, visitedStates, counters⟩

theorem Mirrors.crossings_concluded {A : Audience GraphEngine P}
    (mirrors : Mirrors c ls t (q.concluded A)) : t.run.journal.crossings = q.journal.crossings :=
  mirrors.crossings.trans (Run.crossings_said _)

theorem Run.Tallied.covered (h : q.Tallied backtracked stored restored) (valid : g.validate = .ok ())
    {bad : StateId → Bool} (exhausted : q.Exhausted g bad)
    (mirrors : Mirrors c ls t (q.concluded (Statistics.audience 0))) : t.run.Covered g := by
  obtain ⟨newStates, visitedStates, -⟩ := h.tally_eq mirrors
  have ledger := exhausted.ledger
  refine ⟨?_, ?_, ?_⟩
  · rw [mirrors.crossings_concluded]
    exact ledger.covers
  · rw [newStates, ledger.countP_isNew valid]
  · rw [newStates, visitedStates, ← ledger.length_crossings valid]
    simpa using (List.length_eq_countP_add_countP (·.isNew) (l := q.journal.crossings)).symm

end Conclusions

/-- A fresh exhaustive search without properties, depth-first or best-first with any heuristic, over a
    valid graph and with its edges in any order, goes once along every edge that can be taken, and its
    statistics say so. -/
theorem exhaustive_search_covers {P : Type} [Checkable GraphEngine P] {g : StateGraph} {e : GraphEngine}
    (valid : g.validate = .ok ()) (small : g.size < 2 ^ 63) (fresh : GraphEngine.Fresh g e) :
    ∃ s : Search GraphEngine P Statistics, Search.ofEngine e {} = .ok s ∧
      (∃ o t, Ends DepthFirst.run s.withStatistics o t ∧ o.reason = .exhausted ∧ o.depth = 0 ∧
        t.run.Covered g ∧ (t.run.tally 0).backtracked = t.run.journal.crossings.length) ∧
      ∀ (H : Type) [Heuristic H GraphEngine P], Heuristic.Total H GraphEngine P →
        ∀ b : BestFirst H GraphEngine,
          ∃ o x, Ends BestFirst.run { strategy := b, search := s.withStatistics } o x ∧
            o.reason = .exhausted ∧ x.search.run.Covered g ∧ x.strategy.frontier.size = 0 ∧
            x.strategy.stored = 1 + (g.reach.filter fun s => s ≠ 0 ∧ g.isEnd s = false).card ∧
            (x.search.run.tally 0).stored = x.strategy.stored ∧
            (x.search.run.tally 0).restored = x.strategy.stored - 1 := by
  let s : Search GraphEngine P Statistics := .fresh e {}
  let counting := s.withStatistics
  have start : counting.run.AtStart g {} [] (fun _ => false) := .of_fresh fresh rfl rfl rfl
  have mirrors : Mirrors {} [{ tally := 0 }] counting counting.run :=
    Mirrors.rfl_of_unlimited (s := counting) (Memory.unlimited_configure rfl) rfl rfl rfl
  have hears : (Statistics.audience 0 : Audience GraphEngine P).Hears {}
      [({ tally := 0 } : Statistics)] :=
    Statistics.audience_hears rfl 0
  have guards : Search.Guards GraphEngine ([] : List (Watched P)) fun _ => false := Search.guards_nil
  have exhaustive := Config.exhaustive_default small
  have started : (counting.run.said (Statistics.audience 0) .searchStarted).Tallied 0 0 0 :=
    .started (t := {}) rfl start.crossings
  refine ⟨s, rfl, ?_, ?_⟩
  · obtain ⟨reason, q, t, ends, finished, mirrors'⟩ :=
      DepthFirst.ends_graph hears guards valid exhaustive small start mirrors
    obtain ⟨rfl, depth, exhausted, backtracked, tallied, balance⟩ :=
      finished.balanced ⟨0, started, by rw [Run.crossings_said, start.crossings]; exact start.depth_eq⟩
    obtain ⟨-, -, counted, -, -⟩ := tallied.tally_eq mirrors'
    refine ⟨_, t, ends, rfl, depth, tallied.covered valid exhausted mirrors', ?_⟩
    rw [counted, mirrors'.crossings_concluded, ← balance, depth]
    rfl
  · intro H _ total b
    obtain ⟨reason, q, x, ends, finished, strategy, mirrors'⟩ :=
      BestFirst.ends_graph hears guards valid exhaustive small total start mirrors b
    have base (heuristic : H) : BestFirst.Balanced g (BestFirst.started heuristic,
        (counting.run.said (Statistics.audience 0) .searchStarted).said
          (Statistics.audience 0) .stateStored) := by
      refine ⟨0, 0, started.said .stateStored nofun nofun, ?_, rfl⟩
      rw [Run.crossings_said, Run.crossings_said, start.crossings]
      rfl
    obtain ⟨rfl, empty, exhausted, backtracked, restored, tallied, lasting, queued⟩ :=
      finished.balanced base
    obtain ⟨-, -, -, stored, restored'⟩ := tallied.tally_eq mirrors'
    have drained : q.1.frontier.size = 0 := congrArg List.length empty
    refine ⟨_, x, ends, rfl, tallied.covered valid exhausted mirrors', ?_⟩
    rw [strategy]
    refine ⟨drained, ?_, stored, ?_⟩
    · rw [lasting, exhausted.ledger.countP_lasting valid]
    · rw [restored']
      omega

theorem tangle_covered : ∃ e, GraphEngine.ofGraph .tangle = .ok e ∧
    ∃ s : Search GraphEngine ForbiddenStates Statistics,
      Search.ofEngine (e.withRandomChoices 11) {} = .ok s ∧
      (∃ o t, Ends DepthFirst.run s.withStatistics o t ∧ o.reason = .exhausted ∧
        (t.run.tally 0).newStates = 2 ∧ (t.run.tally 0).newStates + (t.run.tally 0).visitedStates = 5) ∧
      ∃ o x, Ends BestFirst.run
          { strategy := { heuristic := (⟨⟩ : DeepestFirst) }, search := s.withStatistics } o x ∧
        o.reason = .exhausted ∧ (x.search.run.tally 0).stored = 2 ∧
        (x.search.run.tally 0).restored = 1 := by
  have valid : StateGraph.tangle.validate = .ok () := by decide
  have small : StateGraph.tangle.size < 2 ^ 63 := by decide
  obtain ⟨e, made⟩ : ∃ e, GraphEngine.ofGraph .tangle = .ok e := ⟨_, rfl⟩
  have fresh := (GraphEngine.fresh_ofGraph made).withRandomChoices 11
  obtain ⟨s, created, ⟨o, t, ends, reason, -, covered, -⟩, bestFirst⟩ :=
    exhaustive_search_covers (P := ForbiddenStates) valid small fresh
  obtain ⟨o', x, ends', reason', -, -, stored, tally, restored⟩ :=
    bestFirst DeepestFirst (DeepestFirst.total _ _) { heuristic := ⟨⟩ }
  have newStates := covered.newStates
  have steps := covered.steps
  rw [StateGraph.reach_tangle] at newStates steps stored
  have stored : x.strategy.stored = 2 := stored
  rw [stored] at tally restored
  exact ⟨e, made, s, created, ⟨o, t, ends, reason, newStates, steps⟩, o', x, ends', reason', tally,
    restored⟩

end Statewalk
