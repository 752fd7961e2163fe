import Statewalk.Graph.Engine
import Statewalk.Proofs.Reachability

/-! # The choice stack of a graph engine

What every state of a graph engine has in common: its frames are the states of its path, each frame
orders the edges of its state in some way, and the edge that a frame took last leads to the frame
above it.  The moves of the engine are described on such states, where the steps that lead nowhere
for other reasons than a lack of edges cannot happen.
-/

namespace Statewalk

/-! ## Shuffles -/

namespace Random

theorem swapIfInBounds_perm {α : Type} (as : Array α) (i j : Nat) :
    (as.swapIfInBounds i j).toList.Perm as.toList := by
  rw [Array.swapIfInBounds_def]
  split
  · split
    · exact (Array.swap_perm ..).toList
    · exact .refl _
  · exact .refl _

theorem shuffleFrom_perm {α : Type} (i : Nat) (as : Array α) (r : Stream) :
    (shuffleFrom i as r).1.toList.Perm as.toList := by
  induction i generalizing as r with
  | zero => exact .refl _
  | succ i ih =>
    rw [shuffleFrom]
    -- The draw decides which places are swapped, not that they are.
    generalize below32 (i + 2) attempts r = draw
    exact (ih _ _).trans (swapIfInBounds_perm as _ _)

/-- A shuffle loses and repeats nothing, whatever the stream. -/
theorem shuffle_perm {α : Type} (as : List α) (r : Stream) : (shuffle as r).1.Perm as := by
  have perm := shuffleFrom_perm (as.length - 1) as.toArray r
  rw [shuffle]
  -- The result is taken apart by a pattern, so it is named before it is rewritten.
  generalize shuffleFrom (as.length - 1) as.toArray r = result at perm
  exact perm

end Random

theorem GraphEngine.arrange_perm (choices : List Nat) (random : Option Random.Stream) :
    (arrange choices random).1.Perm choices := by
  cases random with
  | none => exact .refl _
  | some r => exact Random.shuffle_perm choices r

/-! ## Frames -/

/-- The transitions of the edges of a state with the given numbers. -/
def StateGraph.picks (g : StateGraph) (s : StateId) (is : List Nat) : List Transition :=
  is.filterMap fun i => (g.edges s)[i]?.map Edge.transition

theorem filterMap_range_getElem? {α β : Type} (f : α → β) (as : List α) :
    (List.range as.length).filterMap (fun i => as[i]?.map f) = as.map f := by
  induction as with
  | nil => rfl
  | cons a as ih =>
    rw [List.length_cons, List.range_succ_eq_map, List.filterMap_cons, List.filterMap_map]
    simpa [Function.comp_def] using ih

theorem StateGraph.picks_declared (g : StateGraph) (s : StateId) :
    g.picks s (GraphEngine.declared g s) = g.outgoing s := by
  unfold GraphEngine.declared outgoing
  split
  · rfl
  · exact filterMap_range_getElem? Edge.transition (g.edges s)

namespace Frame

variable {g : StateGraph} {f : Frame}

/-- The frame orders the edges of its state, and went through that order up to some place. -/
structure Proper (g : StateGraph) (f : Frame) : Prop where
  perm : f.choices.Perm (GraphEngine.declared g f.state)
  tried_le : f.tried ≤ f.choices.length

/-- The transitions that the frame has still to take. -/
def remaining (g : StateGraph) (f : Frame) : List Transition :=
  g.picks f.state (f.choices.drop f.tried)

/-- The frame after one more choice. -/
def next (f : Frame) : Frame :=
  { f with tried := f.tried + 1 }

@[simp] theorem state_next (f : Frame) : f.next.state = f.state := rfl

theorem Proper.edge_of_choice (h : f.Proper g) {i : Nat} (hi : i ∈ f.choices) :
    g.isEnd f.state = false ∧ ∃ e, (g.edges f.state)[i]? = some e := by
  have declared := (h.perm.mem_iff).1 hi
  unfold GraphEngine.declared at declared
  split at declared
  · cases declared
  · rename_i notEnd
    have bound := List.mem_range.1 declared
    exact ⟨by simpa using notEnd, _, List.getElem?_eq_getElem bound⟩

theorem Proper.next (h : f.Proper g) (lt : f.tried < f.choices.length) : f.next.Proper g :=
  ⟨h.perm, lt⟩

theorem Proper.remaining_cons (h : f.Proper g) (lt : f.tried < f.choices.length) :
    ∃ i e, f.choices[f.tried]? = some i ∧ (g.edges f.state)[i]? = some e ∧
      g.isEnd f.state = false ∧ f.remaining g = e.transition :: f.next.remaining g := by
  have choice : f.choices[f.tried]? = some f.choices[f.tried] := List.getElem?_eq_getElem lt
  obtain ⟨notEnd, e, he⟩ := h.edge_of_choice (List.getElem_mem lt)
  refine ⟨_, e, choice, he, notEnd, ?_⟩
  simp only [remaining, Frame.next, StateGraph.picks]
  rw [List.drop_eq_getElem_cons lt, List.filterMap_cons, he]
  rfl

theorem remaining_eq_nil (h : f.tried = f.choices.length) : f.remaining g = [] := by
  simp [remaining, h, StateGraph.picks]

theorem Proper.remaining_perm (h : f.Proper g) (unused : f.tried = 0) :
    (f.remaining g).Perm (g.outgoing f.state) := by
  rw [remaining, unused, List.drop_zero, ← g.picks_declared f.state]
  exact h.perm.filterMap _

theorem Proper.choices_of_end (h : f.Proper g) (isEnd : g.isEnd f.state = true) :
    f.choices = [] := by
  have := h.perm
  rw [GraphEngine.declared, if_pos isEnd] at this
  exact this.eq_nil

/-- A frame of a state that ends here has no transitions to take, whatever becomes of the graph. -/
theorem Proper.remaining_of_end (h : f.Proper g) (isEnd : g.isEnd f.state = true) (g' : StateGraph) :
    f.remaining g' = [] := by
  simp [remaining, h.choices_of_end isEnd, StateGraph.picks]

end Frame

/-! ## Stacks -/

/-- The frames of a path, the current one first, and the transitions of the path, the last one
    first: the lowest frame is at the initial state, and each transition is the one that the frame
    below took last. -/
inductive Stacked (g : StateGraph) : List Frame → List Transition → Prop where
  | root {f : Frame} : f.state = 0 → f.Proper g → Stacked g [f] []
  | push {f top : Frame} {fs : List Frame} {ts : List Transition} {i : Nat} {e : Edge} :
      Stacked g (f :: fs) ts → 1 ≤ f.tried → f.choices[f.tried - 1]? = some i →
      (g.edges f.state)[i]? = some e → top.state = e.target → top.Proper g →
      Stacked g (top :: f :: fs) (e.transition :: ts)

namespace Stacked

variable {g : StateGraph} {f f' : Frame} {fs : List Frame} {ts : List Transition}

theorem proper (h : Stacked g (f :: fs) ts) : f.Proper g := by
  cases h <;> assumption

theorem state_of_singleton (h : Stacked g [f] ts) : f.state = 0 := by
  cases h with
  | root root _ => exact root

theorem length_eq (h : Stacked g fs ts) : fs.length = ts.length + 1 := by
  induction h with
  | root _ _ => rfl
  | push _ _ _ _ _ _ ih => simp only [List.length_cons] at ih ⊢; omega

theorem frame_of_mem (h : Stacked g fs ts) {tr : Transition} (ht : tr ∈ ts) :
    ∃ f ∈ fs, f.state = tr.state := by
  induction h with
  | root _ _ => cases ht
  | push _ _ _ _ target _ ih =>
    rcases List.mem_cons.1 ht with rfl | ht
    · exact ⟨_, List.mem_cons_self, target⟩
    · obtain ⟨f, hf, state⟩ := ih ht
      exact ⟨f, List.mem_cons_of_mem _ hf, state⟩

theorem replace_top (h : Stacked g (f :: fs) ts) (state : f'.state = f.state) (proper : f'.Proper g) :
    Stacked g (f' :: fs) ts := by
  cases h with
  | root root _ => exact .root (state.trans root) proper
  | push below tried choice edge target _ => exact .push below tried choice edge (state.trans target) proper

/-- The transitions of a stack lead to the state of its top frame. -/
theorem route (h : Stacked g fs ts) : ∀ {f rest}, fs = f :: rest → g.Route ts.reverse f.state := by
  -- From the lowest frame up; each push follows the edge that the frame below took last.
  induction h with
  | root root _ =>
    rintro f rest ⟨⟩
    rw [root]
    exact .root
  | push below _ choice edge target _ ih =>
    rintro f rest ⟨⟩
    have notEnd := (below.proper.edge_of_choice (List.mem_of_getElem? choice)).1
    rw [target, List.reverse_cons]
    exact .step (ih rfl) notEnd (List.mem_of_getElem? edge)

end Stacked

/-! ## Engines -/

namespace GraphEngine

variable {g : StateGraph} {e : GraphEngine} {top : Frame} {rest : List Frame}

/-- What holds of an engine over `g` at all times. -/
structure WellFormed (g : StateGraph) (e : GraphEngine) : Prop where
  graph : e.graph = g
  stacked : Stacked g e.frames e.path.recent
  application : e.path.application = g.name
  threads : e.threads = { threads := g.threadsAt e.current }

theorem current_of_frames (h : e.frames = top :: rest) : e.current = top.state := by
  simp [current, h]

theorem WellFormed.frames_length (h : WellFormed g e) : e.frames.length = e.path.length + 1 :=
  h.stacked.length_eq

theorem WellFormed.route (h : WellFormed g e) (frames : e.frames = top :: rest) :
    g.Route e.path.transitions e.current := by
  rw [current_of_frames frames]
  exact h.stacked.route frames

/-! ### Moves -/

theorem forward_of_tried_eq (frames : e.frames = top :: rest) (done : top.tried = top.choices.length) :
    e.forward = (false, e.stall) := by
  simp [forward, frames, done]

/-- An engine whose current frame has choices left follows the edge of the next one. -/
theorem WellFormed.forward_of_tried_lt (h : WellFormed g e) (frames : e.frames = top :: rest)
    (lt : top.tried < top.choices.length) :
    ∃ i edge, top.choices[top.tried]? = some i ∧ (g.edges top.state)[i]? = some edge ∧
      g.isEnd top.state = false ∧ top.remaining g = edge.transition :: top.next.remaining g ∧
      e.forward = (true, enter edge { e with frames := top.next :: rest }) := by
  have proper : top.Proper g := (frames ▸ h.stacked).proper
  obtain ⟨i, edge, choice, hedge, notEnd, remaining⟩ := proper.remaining_cons lt
  refine ⟨i, edge, choice, hedge, notEnd, remaining, ?_⟩
  simp only [forward, frames, choice, h.graph, hedge]
  rfl

section Enter

variable (edge : Edge) (e : GraphEngine)

/-- The frame that following an edge puts on the stack. -/
def entered : Frame :=
  { state := edge.target, choices := (arrange (declared e.graph edge.target) e.random).1 }

@[simp] theorem frames_enter : (enter edge e).frames = entered edge e :: e.frames := rfl

@[simp] theorem graph_enter : (enter edge e).graph = e.graph := rfl

@[simp] theorem ignored_enter : (enter edge e).ignored = e.ignored := rfl

@[simp] theorem current_enter : (enter edge e).current = edge.target := rfl

@[simp] theorem path_enter : (enter edge e).path = e.path.push edge.transition := rfl

@[simp] theorem visited_enter : (enter edge e).visited =
    if edge.target ∈ e.visited then e.visited else edge.target :: e.visited := rfl

theorem mem_visited_enter {s : StateId} :
    s ∈ (enter edge e).visited ↔ s = edge.target ∨ s ∈ e.visited := by
  rw [visited_enter]
  split
  · exact ⟨.inr, fun h => h.elim (fun eq => eq ▸ ‹_›) id⟩
  · exact List.mem_cons

theorem length_visited_enter : e.visited.length ≤ (enter edge e).visited.length := by
  rw [visited_enter]
  split <;> simp

@[simp] theorem isNew_enter : (enter edge e).isNew = decide (edge.target ∉ e.visited) := rfl

@[simp] theorem state_entered : (entered edge e).state = edge.target := rfl

@[simp] theorem tried_entered : (entered edge e).tried = 0 := rfl

theorem proper_entered : (entered edge e).Proper e.graph :=
  ⟨arrange_perm _ _, Nat.zero_le _⟩

end Enter

theorem WellFormed.enter {i : Nat} {edge : Edge} (h : WellFormed g e) (frames : e.frames = top :: rest)
    (lt : top.tried < top.choices.length) (choice : top.choices[top.tried]? = some i)
    (hedge : (g.edges top.state)[i]? = some edge) :
    WellFormed g (enter edge { e with frames := top.next :: rest }) := by
  have stacked : Stacked g (top :: rest) e.path.recent := frames ▸ h.stacked
  have below : Stacked g (top.next :: rest) e.path.recent :=
    stacked.replace_top rfl (stacked.proper.next lt)
  refine ⟨h.graph, ?_, h.application, ?_⟩
  · -- The frame below has taken the edge now, so the new frame may stand on it.
    refine .push below (Nat.le_add_left 1 _) choice hedge rfl ?_
    rw [← h.graph]
    exact proper_entered edge _
  · rw [← h.graph]
    rfl

theorem WellFormed.stall (h : WellFormed g e) : WellFormed g e.stall :=
  ⟨h.graph, h.stacked, h.application, h.threads⟩

theorem backtrack_root (frames : e.frames = [top]) : e.backtrack = (false, e) := by
  simp [backtrack, frames]

theorem backtrack_of_frames {below : Frame} (frames : e.frames = top :: below :: rest) :
    e.backtrack = (true,
      syncThreads { e.stall with frames := below :: rest, path := e.path.pop }) := by
  simp [backtrack, frames]

theorem WellFormed.backtrack {below : Frame} (h : WellFormed g e)
    (frames : e.frames = top :: below :: rest) :
    WellFormed g (syncThreads { e.stall with frames := below :: rest, path := e.path.pop }) := by
  have stacked := h.stacked
  rw [frames] at stacked
  refine ⟨h.graph, ?_, h.application, ?_⟩
  · generalize recent : e.path.recent = ts at stacked
    -- Two frames on top of each other were put there by a push.
    cases stacked with
    | push below _ _ _ _ _ =>
      show Stacked g _ e.path.recent.tail
      rw [recent]
      exact below
  · rw [← h.graph]
    rfl

/-! ### The start -/

/-- An engine over `g` that did not move yet.  It may try the edges of the initial state in any
    order, and those of states to come in the order of any stream of random numbers. -/
structure Fresh (g : StateGraph) (e : GraphEngine) : Prop where
  wellFormed : WellFormed g e
  frames : ∃ choices, e.frames = [{ state := 0, choices }]
  visited : e.visited = [0]
  ignored : e.ignored = []
  isNew : e.isNew = true
  path : e.path = { application := g.name }

theorem ofGraph_eq_ok_iff : ofGraph g = .ok e ↔ g.validate = .ok () ∧ e =
    { graph := g
      frames := [{ state := 0, choices := declared g 0 }]
      visited := [0]
      ignored := []
      isNew := true
      occurred := false
      random := none
      path := { application := g.name }
      threads := { threads := g.threadsAt 0 } } := by
  unfold ofGraph
  cases g.validate <;> simp [Except.map, eq_comm]

theorem fresh_ofGraph (h : ofGraph g = .ok e) : Fresh g e := by
  obtain ⟨-, rfl⟩ := ofGraph_eq_ok_iff.1 h
  exact ⟨⟨rfl, .root rfl ⟨.refl _, Nat.zero_le _⟩, rfl, rfl⟩, ⟨_, rfl⟩, rfl, rfl, rfl, rfl⟩

theorem Fresh.withRandomChoices (h : Fresh g e) (seed : Nat) : Fresh g (e.withRandomChoices seed) := by
  obtain ⟨choices, frames⟩ := h.frames
  have stacked := h.wellFormed.stacked
  rw [frames, h.path] at stacked
  have proper := stacked.proper
  generalize shuffled : Random.shuffle choices (.ofSeed seed.toUInt64) = result
  have perm : result.1.Perm choices := by
    rw [← shuffled]
    exact Random.shuffle_perm choices _
  -- Only the order of the choices of the initial frame changes.
  have eq : e.withRandomChoices seed =
      { e with frames := [{ state := 0, choices := result.1 }], random := some result.2 } := by
    simp [GraphEngine.withRandomChoices, frames, shuffled]
  rw [eq]
  refine ⟨⟨h.wellFormed.graph, ?_, h.wellFormed.application, ?_⟩, ⟨_, rfl⟩, h.visited, h.ignored,
    h.isNew, h.path⟩
  · rw [h.path]
    exact .root rfl ⟨perm.trans proper.perm, Nat.zero_le _⟩
  · rw [h.wellFormed.threads, current_of_frames frames]
    rfl

end GraphEngine

end Statewalk
