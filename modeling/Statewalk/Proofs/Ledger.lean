import Mathlib.Data.List.Flatten
import Mathlib.Data.List.Perm.Subperm
import Statewalk.Journal
import Statewalk.Proofs.ChoiceStack

/-! # The ledger of an exploration

An exploration that takes each transition once keeps a balance: the transitions it took, together
with those that are still to be taken from states it left open, are the transitions of the states
it visited.  How the open states are kept, on a stack or in a queue, does not matter.  When no state
is open any more, the visited states are the reachable ones and each of their transitions was taken
exactly once.
-/

namespace Statewalk

/-- A transition that an engine took out of a state, and whether it reached a new state. -/
structure Crossing where
  source : StateId
  transition : Transition
  isNew : Bool
deriving DecidableEq, Repr

/-- A crossing without the news. -/
def Crossing.step (c : Crossing) : StateId × Transition :=
  (c.source, c.transition)

/-- The state that a crossing reached. -/
def Crossing.target (c : Crossing) : StateId :=
  c.transition.state

/-- The steps out of a state. -/
def StateGraph.steps (g : StateGraph) (s : StateId) : List (StateId × Transition) :=
  (g.outgoing s).map (s, ·)

/-- The steps that a frame has still to take. -/
def Frame.steps (g : StateGraph) (f : Frame) : List (StateId × Transition) :=
  (f.remaining g).map (f.state, ·)

/-- The crossings made so far account for all steps out of the visited states but those that the
    open frames have still to take; all but the first of the visited states were reached by
    crossings into new states. -/
structure Ledger (g : StateGraph) (visited : List StateId) (crossings : List Crossing)
    (opened : List Frame) : Prop where
  balance : (crossings.map Crossing.step ++ opened.flatMap (Frame.steps g)).Perm
    (visited.flatMap g.steps)
  news : visited.Perm (0 :: (crossings.filter (·.isNew)).map Crossing.target)
  nodup : visited.Nodup
  reachable : ∀ s ∈ visited, g.Reachable s
  known : ∀ c ∈ crossings, c.target ∈ visited
  opened_visited : ∀ f ∈ opened, f.state ∈ visited

namespace Ledger

variable {g : StateGraph} {visited : List StateId} {crossings : List Crossing}
  {f frame : Frame} {fs fs' : List Frame} {tr : Transition}

/-! ## Entries -/

/-- The ledger of an exploration that did nothing yet. -/
theorem start (state : f.state = 0) (proper : f.Proper g) (unused : f.tried = 0) :
    Ledger g [0] [] [f] := by
  refine ⟨?_, by simp, by simp, ?_, by simp, by simpa using state⟩
  · have perm := (proper.remaining_perm unused).map (f.state, ·)
    simpa [StateGraph.steps, Frame.steps, state] using perm
  · intro s hs
    rw [List.mem_singleton.1 hs]
    exact .root

theorem perm (h : Ledger g visited crossings fs) (perm : fs.Perm fs') :
    Ledger g visited crossings fs' := by
  refine ⟨?_, h.news, h.nodup, h.reachable, h.known, ?_⟩
  · exact ((perm.flatMap_right _).append_left _).symm.trans h.balance
  · intro f hf
    exact h.opened_visited f (perm.mem_iff.2 hf)

theorem close (h : Ledger g visited crossings (f :: fs)) (spent : f.remaining g = []) :
    Ledger g visited crossings fs := by
  refine ⟨?_, h.news, h.nodup, h.reachable, h.known, ?_⟩
  · simpa [Frame.steps, spent] using h.balance
  · intro f' hf'
    exact h.opened_visited f' (List.mem_cons_of_mem _ hf')

/-- An open frame takes its next transition, to a state that was visited before. -/
theorem cross_known (h : Ledger g visited crossings (f :: fs))
    (next : f.remaining g = tr :: f.next.remaining g) (seen : tr.state ∈ visited) :
    Ledger g visited (crossings ++ [⟨f.state, tr, false⟩]) (f.next :: fs) := by
  refine ⟨?_, ?_, h.nodup, h.reachable, ?_, ?_⟩
  · simpa [Frame.steps, next, Crossing.step] using h.balance
  · simpa using h.news
  · intro c hc
    rcases List.mem_append.1 hc with hc | hc
    · exact h.known c hc
    · rw [List.mem_singleton.1 hc]
      exact seen
  · intro f' hf'
    rcases List.mem_cons.1 hf' with rfl | hf'
    · exact h.opened_visited f List.mem_cons_self
    · exact h.opened_visited f' (List.mem_cons_of_mem _ hf')

/-- An open frame takes its next transition, to a state that was not visited before and becomes
    open. -/
theorem cross_new (h : Ledger g visited crossings (f :: fs))
    (next : f.remaining g = tr :: f.next.remaining g) (out : tr ∈ g.outgoing f.state)
    (unseen : tr.state ∉ visited) (state : frame.state = tr.state) (proper : frame.Proper g)
    (unused : frame.tried = 0) :
    Ledger g (tr.state :: visited) (crossings ++ [⟨f.state, tr, true⟩])
      (frame :: f.next :: fs) := by
  have source := h.opened_visited f List.mem_cons_self
  refine ⟨?_, ?_, List.nodup_cons.2 ⟨unseen, h.nodup⟩, ?_, ?_, ?_⟩
  · have entered : (frame.steps g).Perm (g.steps tr.state) := by
      rw [Frame.steps, StateGraph.steps, state]
      exact (state ▸ proper.remaining_perm unused).map _
    have taken : (crossings ++ [(⟨f.state, tr, true⟩ : Crossing)]).map Crossing.step ++
        (f.next :: fs).flatMap (Frame.steps g) =
        crossings.map Crossing.step ++ (f :: fs).flatMap (Frame.steps g) := by
      simp [Frame.steps, next, Crossing.step]
    show (_ ++ (frame.steps g ++ (f.next :: fs).flatMap (Frame.steps g))).Perm
      (g.steps tr.state ++ visited.flatMap g.steps)
    -- The new frame has all steps of its state to take, which are what the new state adds.
    refine (List.perm_append_comm_assoc ..).trans (entered.append ?_)
    rw [taken]
    exact h.balance
  · have news := h.news.cons tr.state
    rw [List.filter_append, List.map_append]
    refine news.trans ?_
    simpa [Crossing.target] using List.perm_append_singleton tr.state
      (0 :: (crossings.filter (·.isNew)).map Crossing.target) |>.symm
  · intro s hs
    rcases List.mem_cons.1 hs with rfl | hs
    · exact (h.reachable _ source).outgoing out
    · exact h.reachable s hs
  · intro c hc
    rcases List.mem_append.1 hc with hc | hc
    · exact List.mem_cons_of_mem _ (h.known c hc)
    · rw [List.mem_singleton.1 hc]
      exact List.mem_cons_self
  · intro f' hf'
    rcases List.mem_cons.1 hf' with rfl | hf'
    · rw [state]
      exact List.mem_cons_self
    · rcases List.mem_cons.1 hf' with rfl | hf'
      · exact List.mem_cons_of_mem _ source
      · exact List.mem_cons_of_mem _ (h.opened_visited f' (List.mem_cons_of_mem _ hf'))

/-! ## Bounds -/

theorem root_mem (h : Ledger g visited crossings fs) : 0 ∈ visited :=
  h.news.mem_iff.2 List.mem_cons_self

/-- The number of all steps of a graph. -/
def total (g : StateGraph) : Nat :=
  ((List.range g.size).flatMap g.steps).length

theorem subperm_range (h : Ledger g visited crossings fs) (valid : g.validate = .ok ()) :
    visited.Subperm (List.range g.size) := by
  apply h.nodup.subperm
  intro s hs
  exact List.mem_range.2 ((h.reachable s hs).lt_size valid)

theorem visited_le (h : Ledger g visited crossings fs) (valid : g.validate = .ok ()) :
    visited.length ≤ g.size := by
  simpa using (h.subperm_range valid).length_le

theorem crossings_le (h : Ledger g visited crossings fs) (valid : g.validate = .ok ()) :
    crossings.length ≤ total g := by
  obtain ⟨sub, perm, sublist⟩ := h.subperm_range valid
  calc crossings.length
      ≤ (crossings.map Crossing.step ++ fs.flatMap (Frame.steps g)).length := by simp
    _ = (visited.flatMap g.steps).length := h.balance.length_eq
    _ = (sub.flatMap g.steps).length := (perm.flatMap_right _).length_eq.symm
    _ ≤ total g := (sublist.flatMap _).length_le

/-- The transitions out of a visited state that is not open any more lead to visited states. -/
theorem target_mem (h : Ledger g visited crossings fs) {s : StateId} (visit : s ∈ visited)
    (closed : ∀ f ∈ fs, f.state ≠ s) (out : tr ∈ g.outgoing s) : tr.state ∈ visited := by
  have step : (s, tr) ∈ visited.flatMap g.steps :=
    List.mem_flatMap.2 ⟨s, visit, List.mem_map.2 ⟨tr, out, rfl⟩⟩
  -- By the balance the step was taken, or an open frame at the state has it to take.
  rcases List.mem_append.1 (h.balance.mem_iff.2 step) with taken | waiting
  · obtain ⟨c, hc, eq⟩ := List.mem_map.1 taken
    have target := h.known c hc
    rwa [show c.target = tr.state from congrArg (·.2.state) eq] at target
  · obtain ⟨f, hf, step⟩ := List.mem_flatMap.1 waiting
    obtain ⟨_, -, eq⟩ := List.mem_map.1 step
    exact absurd (congrArg Prod.fst eq) (closed f hf)

/-! ## A ledger without open frames -/

theorem taken (h : Ledger g visited crossings []) :
    (crossings.map Crossing.step).Perm (visited.flatMap g.steps) := by
  simpa using h.balance

/-- When no frame is open, exactly the reachable states were visited. -/
theorem mem_visited_iff (h : Ledger g visited crossings []) {s : StateId} :
    s ∈ visited ↔ g.Reachable s := by
  refine ⟨h.reachable s, fun reachable => ?_⟩
  refine reachable.mem_of_closed (S := {s | s ∈ visited}) h.root_mem ?_
  intro s hs tr out
  exact h.target_mem hs nofun out

end Ledger

end Statewalk
