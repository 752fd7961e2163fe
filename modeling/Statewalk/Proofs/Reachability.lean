import Mathlib.Data.Finset.Card
import Mathlib.Data.Nat.Find
import Mathlib.Order.Bounds.Basic
import Statewalk.Graph

/-! # Reachability in a state graph

The second side of every statement about exploration: which states of a graph can be reached, along
which routes, and how far away they are.  None of it mentions an engine or a search.

* `Reachable` — the least set that has the initial state and follows the edges of its members,
  where an end state has no edges to follow.
* `Route` — the transitions that lead from the initial state to a state.
* `Distance` — the length of a shortest route.
-/

namespace Statewalk

/-- The transition that following an edge leaves on a path. -/
def Edge.transition (e : Edge) : Transition :=
  { thread := e.thread, choice := e.label, state := e.target }

@[simp] theorem Edge.state_transition (e : Edge) : e.transition.state = e.target := rfl

namespace StateGraph

variable {g : StateGraph} {s t : StateId}

/-! ## Routes -/

/-- The transitions out of a state.  There is none out of an end state. -/
def outgoing (g : StateGraph) (s : StateId) : List Transition :=
  if g.isEnd s then [] else (g.edges s).map Edge.transition

theorem mem_outgoing {tr : Transition} :
    tr ∈ g.outgoing s ↔ g.isEnd s = false ∧ ∃ e ∈ g.edges s, e.transition = tr := by
  unfold outgoing
  split <;> simp_all

/-- The least set of states that has the initial state and, with a state that is no end state, the
    targets of all its edges. -/
inductive Reachable (g : StateGraph) : StateId → Prop where
  | root : Reachable g 0
  | step {s : StateId} {e : Edge} :
      Reachable g s → g.isEnd s = false → e ∈ g.edges s → Reachable g e.target

/-- The transitions lead from the initial state to the given one, each along an edge of the state
    before it, which is no end state. -/
inductive Route (g : StateGraph) : List Transition → StateId → Prop where
  | root : Route g [] 0
  | step {ts : List Transition} {s : StateId} {e : Edge} :
      Route g ts s → g.isEnd s = false → e ∈ g.edges s → Route g (ts ++ [e.transition]) e.target

theorem Reachable.outgoing (h : g.Reachable s) {tr : Transition} (ht : tr ∈ g.outgoing s) :
    g.Reachable tr.state := by
  obtain ⟨notEnd, e, he, rfl⟩ := mem_outgoing.1 ht
  exact .step h notEnd he

theorem Route.outgoing {ts : List Transition} (h : g.Route ts s) {tr : Transition}
    (ht : tr ∈ g.outgoing s) : g.Route (ts ++ [tr]) tr.state := by
  obtain ⟨notEnd, e, he, rfl⟩ := mem_outgoing.1 ht
  exact .step h notEnd he

theorem Route.reachable {ts : List Transition} (h : g.Route ts s) : g.Reachable s := by
  induction h with
  | root => exact .root
  | step _ notEnd he ih => exact .step ih notEnd he

theorem Reachable.exists_route (h : g.Reachable s) : ∃ ts, g.Route ts s := by
  induction h with
  | root => exact ⟨[], .root⟩
  | step _ notEnd he ih =>
    obtain ⟨ts, route⟩ := ih
    exact ⟨_, .step route notEnd he⟩

/-- A set that has the initial state and is closed under the transitions of its members has every
    reachable state. -/
theorem Reachable.mem_of_closed {S : Set StateId} (root : 0 ∈ S)
    (closed : ∀ s ∈ S, ∀ tr ∈ g.outgoing s, tr.state ∈ S) (h : g.Reachable s) : s ∈ S := by
  induction h with
  | root => exact root
  | step _ notEnd he ih => exact closed _ ih _ (mem_outgoing.2 ⟨notEnd, _, he, rfl⟩)

/-! ## Distances -/

/-- The least number of transitions from the initial state to a state. -/
def Distance (g : StateGraph) (s : StateId) (d : Nat) : Prop :=
  IsLeast {n | ∃ ts, g.Route ts s ∧ ts.length = n} d

theorem Distance.le {d : Nat} (h : g.Distance s d) {ts : List Transition} (route : g.Route ts s) :
    d ≤ ts.length :=
  h.2 ⟨ts, route, rfl⟩

theorem Distance.reachable {d : Nat} (h : g.Distance s d) : g.Reachable s := by
  obtain ⟨ts, route, -⟩ := h.1
  exact route.reachable

theorem Distance.unique {d d' : Nat} (h : g.Distance s d) (h' : g.Distance s d') : d = d' :=
  IsLeast.unique h h'

theorem Reachable.exists_distance (h : g.Reachable s) : ∃ d, g.Distance s d := by
  obtain ⟨ts, route⟩ := h.exists_route
  have nonempty : ∃ n, ∃ ts, g.Route ts s ∧ ts.length = n := ⟨_, ts, route, rfl⟩
  classical
  exact ⟨Nat.find nonempty, Nat.find_spec nonempty, fun n hn => Nat.find_min' nonempty hn⟩

theorem distance_root (g : StateGraph) : g.Distance 0 0 :=
  ⟨⟨[], .root, rfl⟩, fun _ _ => Nat.zero_le _⟩

theorem Distance.eq_root (h : g.Distance s 0) : s = 0 := by
  obtain ⟨ts, route, hts⟩ := h.1
  cases route with
  | root => rfl
  | step _ _ _ => simp at hts

/-- The state before the last one on a shortest route is one step nearer. -/
theorem Distance.predecessor {d : Nat} (h : g.Distance t (d + 1)) :
    ∃ s, g.Distance s d ∧ ∃ tr ∈ g.outgoing s, tr.state = t := by
  obtain ⟨ts, route, hts⟩ := h.1
  cases route with
  | root => simp at hts
  | @step ts s e route notEnd he =>
    have out : e.transition ∈ g.outgoing s := mem_outgoing.2 ⟨notEnd, e, he, rfl⟩
    refine ⟨s, ⟨⟨ts, route, by simpa using hts⟩, ?_⟩, e.transition, out, rfl⟩
    rintro n ⟨us, shorter, rfl⟩
    have := h.le (shorter.outgoing out)
    simpa using this

/-! ## Valid graphs -/

theorem strayEdge?_eq_none_iff {bound : Nat} (source : Nat) {qs : List GraphState} :
    strayEdge? bound source qs = none ↔ ∀ q ∈ qs, ∀ e ∈ q.edges, e.target < bound := by
  induction qs generalizing source with
  | nil => simp [strayEdge?]
  | cons q qs ih =>
    rw [strayEdge?, List.forall_mem_cons]
    cases found : q.edges.find? (bound ≤ ·.target) with
    | none =>
      have inside := List.find?_eq_none.1 found
      exact (ih _).trans (iff_and_self.2 fun _ => by simpa using inside)
    | some e =>
      have inside := List.mem_of_find?_eq_some found
      have stray := List.find?_some found
      simp only [reduceCtorEq, false_iff, not_and_or]
      exact .inl fun all => absurd (all e inside) (by simpa using stray)

theorem validate_eq_ok_iff :
    g.validate = .ok () ↔ 0 < g.size ∧ ∀ q ∈ g.states, ∀ e ∈ q.edges, e.target < g.size := by
  rw [← strayEdge?_eq_none_iff 0, size, List.length_pos_iff, validate]
  split
  · simp_all
  · split <;> simp_all [size]

theorem state?_of_mem_edges {e : Edge} (h : e ∈ g.edges s) :
    ∃ q, g.states[s]? = some q ∧ e ∈ q.edges := by
  unfold edges state? at h
  split at h
  · exact ⟨_, ‹_›, h⟩
  · cases h

section Valid

variable (valid : g.validate = .ok ())

include valid

theorem target_lt_size {e : Edge} (h : e ∈ g.edges s) : e.target < g.size := by
  obtain ⟨q, hq, he⟩ := state?_of_mem_edges h
  exact (validate_eq_ok_iff.1 valid).2 q (List.mem_of_getElem? hq) e he

theorem Reachable.lt_size (h : g.Reachable s) : s < g.size := by
  cases h with
  | root => exact (validate_eq_ok_iff.1 valid).1
  | step _ _ he => exact target_lt_size valid he

end Valid

/-! ## The set of reachable states -/

open Classical in
/-- The reachable states of a valid graph. -/
noncomputable def reach (g : StateGraph) : Finset StateId :=
  (Finset.range g.size).filter g.Reachable

theorem mem_reach (valid : g.validate = .ok ()) : s ∈ g.reach ↔ g.Reachable s := by
  simp only [reach, Finset.mem_filter, Finset.mem_range, and_iff_right_iff_imp]
  exact fun h => h.lt_size valid

/-! ## Small graphs -/

/-- A graph with a loop at one state, two edges between the same states, a cycle, and an end state
    whose edge cannot be taken. -/
def tangle : StateGraph :=
  { name := "tangle"
    states := [
      { edges := [{ target := 0 }, { target := 1 }, { target := 1, thread := 1, label := "again" }] },
      { edges := [{ target := 2 }, { target := 0 }] },
      { flaggedEnd := true, edges := [{ target := 3 }] },
      {}] }

theorem reachable_tangle : tangle.Reachable 2 := by
  have first : tangle.Reachable 1 := .step (e := { target := 1 }) .root rfl (by decide)
  exact .step (e := { target := 2 }) first rfl (by decide)

theorem not_reachable_tangle : ¬ tangle.Reachable 3 := by
  intro reachable
  have closed : ∀ s ∈ {s | s < 3}, ∀ tr ∈ tangle.outgoing s, tr.state ∈ {s | s < 3} := by
    show ∀ s < 3, ∀ tr ∈ tangle.outgoing s, tr.state < 3
    decide
  exact absurd (reachable.mem_of_closed (show 0 < 3 by decide) closed) (Nat.lt_irrefl 3)

theorem reach_tangle : tangle.reach = {0, 1, 2} := by
  ext s
  rw [mem_reach (by decide)]
  constructor
  · intro reachable
    have lt : s < 4 := reachable.lt_size (by decide)
    have ne : s ≠ 3 := fun eq => not_reachable_tangle (eq ▸ reachable)
    have cases : ∀ n < 4, n ≠ 3 → n ∈ ({0, 1, 2} : Finset StateId) := by decide
    exact cases s lt ne
  · have cases : ∀ n ∈ ({0, 1, 2} : Finset StateId), n = 0 ∨ n = 1 ∨ n = 2 := by decide
    intro mem
    rcases cases s mem with rfl | rfl | rfl
    · exact .root
    · exact .step (e := { target := 1 }) .root rfl (by decide)
    · exact reachable_tangle

/-- A graph with a long and a short way to a state that leads on. -/
def shortcut : StateGraph :=
  { name := "shortcut"
    states := [
      { edges := [{ target := 1 }, { target := 2 }] }, { edges := [{ target := 2 }] },
      { edges := [{ target := 3 }] }, {}] }

theorem distance_shortcut : shortcut.Distance 3 2 := by
  have near : shortcut.Route _ 2 := .step (e := { target := 2 }) .root rfl (by decide)
  have route : shortcut.Route _ 3 := .step (e := { target := 3 }) near rfl (by decide)
  obtain ⟨d, distance⟩ := route.reachable.exists_distance
  have le : d ≤ 2 := distance.le route
  match d, le with
  | 0, _ => exact absurd distance.eq_root (by decide)
  | 1, _ =>
    -- No edge leads from the initial state to this one.
    obtain ⟨before, atRoot, tr, out, state⟩ := distance.predecessor
    rw [atRoot.eq_root] at out
    have apart : ∀ tr ∈ shortcut.outgoing 0, tr.state ≠ 3 := by decide
    exact absurd state (apart tr out)
  | 2, _ => exact distance

end StateGraph

end Statewalk
