import Statewalk.Proofs.Ledger

/-! # Edges into forbidden states

A search that goes on after violations enters a forbidden state along every edge that leads into one
and never leaves it by an edge.  For such a search a forbidden state is an end state: `sealed` flags
it as one, and what can be reached in the sealed graph is what can be reached from states that are
not forbidden.

* `breaches` — the edges into forbidden states that can be taken, said without a search.
* `Ledger.perm_breaches` — a closed ledger of the sealed graph has taken each of them once.
-/

namespace Statewalk

/-- The edge that a transition followed. -/
def Transition.edge (t : Transition) : Edge :=
  { target := t.state, thread := t.thread, label := t.choice }

@[simp] theorem Edge.edge_transition (e : Edge) : e.transition.edge = e := rfl

namespace StateGraph

variable {g : StateGraph} {F : List StateId} {s : StateId}

/-- The least set of states that has the initial state and, with a state that is neither an end state
    nor forbidden, the targets of all its edges. -/
inductive ReachableOutside (g : StateGraph) (F : List StateId) : StateId → Prop where
  | root : ReachableOutside g F 0
  | step {s : StateId} {e : Edge} : ReachableOutside g F s → g.isEnd s = false → s ∉ F →
      e ∈ g.edges s → ReachableOutside g F e.target

/-- The edges of the state can be taken without a forbidden state on the way. -/
structure Exposed (g : StateGraph) (F : List StateId) (s : StateId) : Prop where
  reachable : g.ReachableOutside F s
  lasting : g.isEnd s = false
  allowed : s ∉ F

/-- The edges into forbidden states that can be taken without a forbidden state on the way, each with
    its source. -/
noncomputable def breaches (g : StateGraph) (F : List StateId) : List (StateId × Edge) :=
  ((List.range g.size).filter fun s => open Classical in decide (g.Exposed F s)).flatMap fun s =>
    ((g.edges s).filter (·.target ∈ F)).map (s, ·)

/-! ## Sealed graphs -/

/-- The state as an end state if it is forbidden. -/
def sealState (F : List StateId) (s : StateId) (q : GraphState) : GraphState :=
  { q with flaggedEnd := q.flaggedEnd || decide (s ∈ F) }

/-- The graph with all forbidden states as end states. -/
def sealed (F : List StateId) (g : StateGraph) : StateGraph :=
  { g with states := g.states.mapIdx (sealState F) }

@[simp] theorem size_sealed : (g.sealed F).size = g.size := by
  simp [sealed, size]

/-- Without forbidden states there is nothing to seal. -/
theorem sealed_nil : g.sealed [] = g := by
  have states : g.states.mapIdx (sealState []) = g.states := by
    apply List.ext_getElem?
    intro s
    cases found : g.states[s]? <;> simp [found, sealState]
  rw [sealed, states]

theorem state?_sealed : (g.sealed F).state? s = (g.state? s).map (sealState F s) := by
  simp [sealed, state?]

@[simp] theorem edges_sealed : (g.sealed F).edges s = g.edges s := by
  unfold edges
  rw [state?_sealed]
  cases g.state? s <;> rfl

theorem isEnd_sealed_of_not_mem (allowed : s ∉ F) : (g.sealed F).isEnd s = g.isEnd s := by
  unfold isEnd
  rw [state?_sealed]
  cases g.state? s <;> simp [sealState, allowed]

theorem isEnd_sealed_of_mem (forbidden : s ∈ F) (lt : s < g.size) : (g.sealed F).isEnd s = true := by
  have present : g.state? s = some (g.states[s]) := List.getElem?_eq_getElem lt
  unfold isEnd
  rw [state?_sealed, present]
  simp [sealState, forbidden]

theorem isEnd_sealed_eq_false (lt : s < g.size) :
    (g.sealed F).isEnd s = false ↔ g.isEnd s = false ∧ s ∉ F := by
  by_cases forbidden : s ∈ F
  · simp [isEnd_sealed_of_mem forbidden lt, forbidden]
  · simp [isEnd_sealed_of_not_mem forbidden, forbidden]

theorem strayEdge?_sealed (bound source offset : Nat) (qs : List GraphState) :
    strayEdge? bound source (qs.mapIdx fun i => sealState F (offset + i)) =
      strayEdge? bound source qs := by
  induction qs generalizing source offset with
  | nil => rfl
  | cons q qs ih =>
    have rest := ih (source + 1) (offset + 1)
    simp only [List.mapIdx_cons, strayEdge?, sealState] at rest ⊢
    cases q.edges.find? (bound ≤ ·.target) with
    | some e => rfl
    | none =>
      simpa [Nat.add_assoc, Nat.add_comm 1] using rest

theorem validate_sealed (valid : g.validate = .ok ()) : (g.sealed F).validate = .ok () := by
  have stray := strayEdge?_sealed (F := F) g.size 0 0 g.states
  simp only [Nat.zero_add] at stray
  have empty : (g.sealed F).states.isEmpty = g.states.isEmpty := by
    cases h : g.states <;> simp [sealed, h]
  rw [validate, empty, size_sealed, sealed, stray]
  exact valid

theorem lt_size_of_reachable_sealed (valid : g.validate = .ok ()) (h : (g.sealed F).Reachable s) :
    s < g.size :=
  size_sealed ▸ h.lt_size (validate_sealed valid)

/-- In the sealed graph, what is reached is what is reached outside the forbidden states. -/
theorem reachable_sealed (valid : g.validate = .ok ()) :
    (g.sealed F).Reachable s ↔ g.ReachableOutside F s := by
  constructor
  · intro reachable
    induction reachable with
    | root => exact .root
    | @step s e reachable lasting edge ih =>
      obtain ⟨lasting, allowed⟩ := (isEnd_sealed_eq_false (lt_size_of_reachable_sealed valid reachable)).1 lasting
      exact .step ih lasting allowed (edges_sealed ▸ edge)
  · intro reachable
    induction reachable with
    | root => exact .root
    | step _ lasting allowed edge ih =>
      exact .step ih ((isEnd_sealed_of_not_mem allowed).trans lasting) (by rwa [edges_sealed])

theorem exposed_iff_sealed (valid : g.validate = .ok ()) :
    g.Exposed F s ↔ (g.sealed F).Reachable s ∧ (g.sealed F).isEnd s = false := by
  constructor
  · rintro ⟨reachable, lasting, allowed⟩
    exact ⟨(reachable_sealed valid).2 reachable, (isEnd_sealed_of_not_mem allowed).trans lasting⟩
  · rintro ⟨reachable, lasting⟩
    have split := (isEnd_sealed_eq_false (lt_size_of_reachable_sealed valid reachable)).1 lasting
    exact ⟨(reachable_sealed valid).1 reachable, split.1, split.2⟩

theorem outgoing_sealed (allowed : s ∉ F) : (g.sealed F).outgoing s = g.outgoing s := by
  rw [outgoing, outgoing, isEnd_sealed_of_not_mem allowed, edges_sealed]

theorem outgoing_sealed_of_end (isEnd : (g.sealed F).isEnd s = true) : (g.sealed F).outgoing s = [] :=
  if_pos isEnd

theorem declared_sealed (allowed : s ∉ F) :
    GraphEngine.declared (g.sealed F) s = GraphEngine.declared g s := by
  rw [GraphEngine.declared, GraphEngine.declared, isEnd_sealed_of_not_mem allowed, edges_sealed]

end StateGraph

namespace Frame

variable {g : StateGraph} {F : List StateId} {f : Frame}

theorem remaining_sealed : f.remaining (g.sealed F) = f.remaining g := by
  simp [remaining, StateGraph.picks]

theorem Proper.sealed (h : f.Proper g) (allowed : f.state ∉ F) : f.Proper (g.sealed F) := by
  refine ⟨?_, h.tried_le⟩
  rw [StateGraph.declared_sealed allowed]
  exact h.perm

end Frame

/-! ## Ledgers of sealed graphs -/

namespace Ledger

variable {g : StateGraph} {F : List StateId} {visited : List StateId} {crossings : List Crossing}
  {f frame : Frame} {fs : List Frame} {tr : Transition}

section Cross

variable (ledger : Ledger (g.sealed F) visited crossings (f :: fs)) (allowed : f.state ∉ F)
  (next : f.remaining g = tr :: f.next.remaining g) (out : tr ∈ g.outgoing f.state)

include ledger allowed next out

/-- An open frame takes its next transition, to a state from which none is to be taken. -/
theorem cross_passing (passing : tr.state ∈ visited ∨ (g.sealed F).isEnd tr.state = true) :
    Ledger (g.sealed F) (if tr.state ∈ visited then visited else tr.state :: visited)
      (crossings ++ [⟨f.state, tr, decide (tr.state ∉ visited)⟩]) (f.next :: fs) := by
  rw [← f.remaining_sealed (F := F), ← f.next.remaining_sealed (F := F)] at next
  rw [← StateGraph.outgoing_sealed allowed] at out
  by_cases seen : tr.state ∈ visited
  · simpa [seen] using ledger.cross_known next seen
  · have isEnd := passing.resolve_left seen
    -- The frame that stands for the new state has nothing to take, and is closed at once.
    let spent : Frame := { state := tr.state, choices := [] }
    have proper : spent.Proper (g.sealed F) :=
      ⟨by simp [spent, GraphEngine.declared, isEnd], Nat.zero_le _⟩
    have opened := ledger.cross_new next out seen (show spent.state = tr.state from rfl) proper rfl
    simpa [seen] using opened.close rfl

/-- An open frame takes its next transition, to a new state that is not forbidden. -/
theorem cross_allowed (unseen : tr.state ∉ visited) (state : frame.state = tr.state)
    (proper : frame.Proper g) (unused : frame.tried = 0) (target : tr.state ∉ F) :
    Ledger (g.sealed F) (tr.state :: visited) (crossings ++ [⟨f.state, tr, true⟩])
      (frame :: f.next :: fs) := by
  rw [← f.remaining_sealed (F := F), ← f.next.remaining_sealed (F := F)] at next
  rw [← StateGraph.outgoing_sealed allowed] at out
  exact ledger.cross_new next out unseen state (proper.sealed (state ▸ target)) unused

end Cross

end Ledger

/-- The edge that a crossing went along, with its source. -/
def Crossing.along (c : Crossing) : StateId × Edge :=
  (c.source, c.transition.edge)

/-- What a map gives outside of a filter may be left out. -/
theorem flatMap_filter_of_eq_nil {α β : Type} {p : α → Bool} {k : α → List β} {as : List α}
    (h : ∀ a ∈ as, p a = false → k a = []) : (as.filter p).flatMap k = as.flatMap k := by
  induction as with
  | nil => rfl
  | cons a as ih =>
    have rest := ih fun b hb => h b (List.mem_cons_of_mem _ hb)
    cases keep : p a with
    | true => simp [keep, rest]
    | false => simp [keep, rest, h a List.mem_cons_self keep]

/-- When no frame is open, the crossings into forbidden states went along the edges into them, along
    each once. -/
theorem Ledger.perm_breaches {g : StateGraph} {F : List StateId} {visited : List StateId}
    {crossings : List Crossing} (h : Ledger (g.sealed F) visited crossings [])
    (valid : g.validate = .ok ()) :
    ((crossings.filter (·.target ∈ F)).map Crossing.along).Perm (g.breaches F) := by
  let into (step : StateId × Transition) : Bool := step.2.state ∈ F
  let along (step : StateId × Transition) : StateId × Edge := (step.1, step.2.edge)
  have taken := (h.taken.filter into).map along
  rw [List.filter_map, List.map_map, List.filter_flatMap, List.map_flatMap] at taken
  refine List.Perm.trans taken ?_
  classical
  -- Only from exposed states do such crossings start, and all of these were visited.
  have exposed (s : StateId) (hs : s ∈ visited) (hidden : decide (g.Exposed F s) = false) :
      (((g.sealed F).steps s).filter into).map along = [] := by
    have isEnd : (g.sealed F).isEnd s = true := by
      by_contra lasting
      rw [Bool.not_eq_true] at lasting
      exact of_decide_eq_false hidden ((StateGraph.exposed_iff_sealed valid).2 ⟨h.reachable s hs, lasting⟩)
    simp [StateGraph.steps, StateGraph.outgoing_sealed_of_end isEnd]
  rw [← flatMap_filter_of_eq_nil exposed]
  have states : (visited.filter (g.Exposed F)).Perm ((List.range g.size).filter (g.Exposed F)) := by
    rw [List.perm_ext_iff_of_nodup (h.nodup.filter _) (List.nodup_range.filter _)]
    intro s
    simp only [List.mem_filter, decide_eq_true_eq, List.mem_range, and_congr_left_iff]
    intro exposed
    have reachable := ((StateGraph.exposed_iff_sealed valid).1 exposed).1
    have lt := StateGraph.lt_size_of_reachable_sealed valid reachable
    exact iff_of_true (h.mem_visited_iff.2 reachable) lt
  refine (states.flatMap_right _).trans (.of_eq ?_)
  apply List.flatMap_congr
  intro s hs
  have exposed : g.Exposed F s := by simpa using (List.mem_filter.1 hs).2
  have outgoing : (g.sealed F).outgoing s = (g.edges s).map Edge.transition := by
    rw [StateGraph.outgoing_sealed exposed.allowed, StateGraph.outgoing, exposed.lasting]
    rfl
  rw [StateGraph.steps, outgoing, List.filter_map, List.filter_map, List.map_map, List.map_map]
  rfl

end Statewalk
