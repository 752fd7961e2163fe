import Mathlib.Algebra.BigOperators.Group.Finset.Basic
import Mathlib.Algebra.Ring.Nat
import Mathlib.Data.List.Infix
import Statewalk.Proofs.Ledger

/-! # Surveys of depths

A depth-first exploration that records the depths at which it meets states, and takes the transitions
of a state again whenever it meets it at a smaller depth.  Whatever was recorded above the limit is
either settled, in that all its successors are recorded at most one deeper, or still has the missing
transitions to take on the stack.  When the stack is empty, the recorded depths are the distances.
-/

namespace Statewalk

variable {g : StateGraph} {limit d : Nat} {T : StateId → Option Nat} {f frame : Frame}
  {fs opened : List Frame} {tr : Transition} {s : StateId}

/-! ## Recording depths -/

/-- The depth is smaller than what is recorded for the state. -/
def improves (T : StateId → Option Nat) (s : StateId) (d : Nat) : Bool :=
  match T s with
  | some k => decide (d < k)
  | none => true

/-- What is recorded after a state was met at a depth. -/
def improve (T : StateId → Option Nat) (s : StateId) (d : Nat) : StateId → Option Nat :=
  if improves T s d then fun q => if q = s then some d else T q else T

theorem improve_of_not_improves (h : improves T s d = false) : improve T s d = T := by
  simp [improve, h]

theorem improve_of_improves (h : improves T s d = true) (q : StateId) :
    improve T s d q = if q = s then some d else T q := by
  simp [improve, h]

theorem exists_of_not_improves (h : improves T s d = false) : ∃ k ≤ d, T s = some k := by
  unfold improves at h
  cases recorded : T s with
  | none => simp [recorded] at h
  | some k =>
    simp only [recorded, decide_eq_false_iff_not, Nat.not_lt] at h
    exact ⟨k, h, rfl⟩

theorem lt_of_improves (h : improves T s d = true) {k : Nat} (recorded : T s = some k) : d < k := by
  simpa [improves, recorded] using h

theorem exists_improve (T : StateId → Option Nat) (s : StateId) (d : Nat) :
    ∃ k ≤ d, improve T s d s = some k := by
  cases h : improves T s d with
  | true => exact ⟨d, Nat.le_refl d, by simp [improve_of_improves h]⟩
  | false =>
    rw [improve_of_not_improves h]
    exact exists_of_not_improves h

theorem exists_improve_of_some {q : StateId} {k : Nat} (recorded : T q = some k) :
    ∃ k' ≤ k, improve T s d q = some k' := by
  cases h : improves T s d with
  | false => exact ⟨k, Nat.le_refl k, by rw [improve_of_not_improves h, recorded]⟩
  | true =>
    rw [improve_of_improves h]
    by_cases same : q = s
    · subst same
      exact ⟨d, Nat.le_of_lt (lt_of_improves h recorded), by simp⟩
    · exact ⟨k, Nat.le_refl k, by simp [same, recorded]⟩

theorem isSome_improve {q : StateId} : (improve T s d q).isSome = true ↔ q = s ∨ (T q).isSome = true := by
  by_cases same : q = s
  · subst same
    obtain ⟨k, -, recorded⟩ := exists_improve T q d
    simp [recorded]
  · cases h : improves T s d with
    | false => simp [improve_of_not_improves h, same]
    | true => simp [improve_of_improves h, same]

/-! ## Open frames -/

/-- The frames stand at the depths that are recorded for their states, the lowest one at depth 0. -/
def Placed (T : StateId → Option Nat) (opened : List Frame) : Prop :=
  ∀ f rest, (f :: rest) <:+ opened → T f.state = some rest.length

namespace Placed

theorem tail (h : Placed T (f :: fs)) : Placed T fs :=
  fun f' rest suffix => h f' rest (suffix.trans (List.suffix_cons f fs))

theorem top (h : Placed T (f :: fs)) : T f.state = some fs.length :=
  h f fs (List.suffix_refl _)

theorem cons (h : Placed T fs) (recorded : T f.state = some fs.length) : Placed T (f :: fs) := by
  intro f' rest suffix
  rcases List.suffix_cons_iff.1 suffix with same | suffix
  · cases same
    exact recorded
  · exact h f' rest suffix

theorem depth_lt (h : Placed T opened) (hf : f ∈ opened) :
    ∃ d < opened.length, T f.state = some d := by
  obtain ⟨above, below, rfl⟩ := List.append_of_mem hf
  refine ⟨below.length, ?_, h f below (List.suffix_append above _)⟩
  simp only [List.length_append, List.length_cons]
  omega

theorem nodup (h : Placed T opened) : (opened.map Frame.state).Nodup := by
  induction opened with
  | nil => exact .nil
  | cons f fs ih =>
    rw [List.map_cons, List.nodup_cons]
    refine ⟨?_, ih h.tail⟩
    intro member
    obtain ⟨f', hf', state⟩ := List.mem_map.1 member
    obtain ⟨d, lt, recorded⟩ := h.tail.depth_lt hf'
    rw [state, h.top, Option.some.injEq] at recorded
    omega

/-- A state that is met below all open frames and recorded anew is none of theirs. -/
theorem improve (h : Placed T opened) (improves : improves T s d = true) (below : opened.length ≤ d) :
    Placed (improve T s d) opened := by
  intro f rest suffix
  have recorded := h f rest suffix
  -- A frame at the state would stand at a depth above the one that is recorded now.
  have other : f.state ≠ s := by
    rintro rfl
    have lt := lt_of_improves improves recorded
    have length := suffix.length_le
    rw [List.length_cons] at length
    omega
  rw [improve_of_improves improves, if_neg other, recorded]

end Placed

/-! ## Surveys -/

/-- The recorded depths are lengths of routes within the limit, the open frames stand at the depths of
    their states, and every transition out of a state recorded above the limit leads to a state that is
    recorded at most one deeper, or is still to be taken by an open frame. -/
structure Survey (g : StateGraph) (limit : Nat) (T : StateId → Option Nat) (opened : List Frame) :
    Prop where
  placed : Placed T opened
  routes : ∀ s d, T s = some d → ∃ ts, g.Route ts s ∧ ts.length = d
  bounded : ∀ s d, T s = some d → d ≤ limit
  swept : ∀ s d, T s = some d → d < limit → ∀ tr ∈ g.outgoing s,
    (∃ k ≤ d + 1, T tr.state = some k) ∨ ∃ f ∈ opened, f.state = s ∧ tr ∈ f.remaining g

namespace Survey

theorem lt_size (h : Survey g limit T opened) (valid : g.validate = .ok ()) (recorded : T s = some d) :
    s < g.size := by
  obtain ⟨ts, route, -⟩ := h.routes s d recorded
  exact route.reachable.lt_size valid

/-- No more frames are open than there are states. -/
theorem opened_le (h : Survey g limit T opened) (valid : g.validate = .ok ()) :
    opened.length ≤ g.size := by
  have sub : (opened.map Frame.state).Subperm (List.range g.size) := by
    apply h.placed.nodup.subperm
    intro s hs
    obtain ⟨f, hf, rfl⟩ := List.mem_map.1 hs
    obtain ⟨d, -, recorded⟩ := h.placed.depth_lt hf
    exact List.mem_range.2 (h.lt_size valid recorded)
  simpa using sub.length_le

theorem start (state : f.state = 0) (proper : f.Proper g) (unused : f.tried = 0) :
    Survey g limit (improve (fun _ => none) 0 0) [f] := by
  have recorded (q : StateId) : improve (fun _ => none) 0 0 q = if q = 0 then some 0 else none :=
    improve_of_improves rfl q
  refine ⟨Placed.cons (fun _ _ suffix => ?_) ?_, ?_, ?_, ?_⟩
  · simpa using suffix.length_le
  · rw [recorded, state]
    rfl
  · intro s d hs
    rw [recorded] at hs
    split at hs
    · subst s
      exact ⟨[], .root, by simpa using hs⟩
    · cases hs
  · intro s d hs
    rw [recorded] at hs
    split at hs
    · cases hs
      exact Nat.zero_le _
    · cases hs
  · intro s d hs _ tr out
    rw [recorded] at hs
    split at hs
    · subst s
      refine .inr ⟨f, List.mem_singleton_self f, state, ?_⟩
      exact (proper.remaining_perm unused).mem_iff.2 (state ▸ out)
    · cases hs

theorem close (h : Survey g limit T (f :: fs)) (spent : f.remaining g = []) : Survey g limit T fs := by
  refine ⟨h.placed.tail, h.routes, h.bounded, ?_⟩
  intro s d hs lt tr out
  rcases h.swept s d hs lt tr out with settled | ⟨f', hf', state, remaining⟩
  · exact .inl settled
  · rcases List.mem_cons.1 hf' with rfl | hf'
    · rw [spent] at remaining
      cases remaining
    · exact .inr ⟨f', hf', state, remaining⟩

/-- A frame whose state can be left at once need not be open. -/
theorem drop (h : Survey g limit T (f :: fs)) (settled : g.outgoing f.state = [] ∨ limit ≤ fs.length) :
    Survey g limit T fs := by
  refine ⟨h.placed.tail, h.routes, h.bounded, ?_⟩
  intro s d hs lt tr out
  rcases h.swept s d hs lt tr out with recorded | ⟨f', hf', state, remaining⟩
  · exact .inl recorded
  · rcases List.mem_cons.1 hf' with rfl | hf'
    · -- The state has no transitions, or lies so deep that they do not matter.
      subst state
      rw [h.placed.top, Option.some.injEq] at hs
      rcases settled with none | deep
      · rw [none] at out
        cases out
      · omega
    · exact .inr ⟨f', hf', state, remaining⟩

/-- An open frame takes its next transition, to a state that is recorded at most one deeper. -/
theorem cross_known (h : Survey g limit T (f :: fs)) (next : f.remaining g = tr :: f.next.remaining g)
    (known : improves T tr.state (fs.length + 1) = false) : Survey g limit T (f.next :: fs) := by
  refine ⟨Placed.cons h.placed.tail h.placed.top, h.routes, h.bounded, ?_⟩
  intro s d hs lt tr' out
  rcases h.swept s d hs lt tr' out with settled | ⟨f', hf', state, remaining⟩
  · exact .inl settled
  · rcases List.mem_cons.1 hf' with rfl | hf'
    · rw [next] at remaining
      rcases List.mem_cons.1 remaining with rfl | remaining
      · -- The transition that was taken leads to a state that is recorded well enough.
        subst state
        rw [h.placed.top, Option.some.injEq] at hs
        subst hs
        exact .inl (exists_of_not_improves known)
      · exact .inr ⟨_, List.mem_cons_self, state, remaining⟩
    · exact .inr ⟨f', List.mem_cons_of_mem _ hf', state, remaining⟩

/-- An open frame takes its next transition, to a state that is recorded anew and becomes open. -/
theorem cross_improved (h : Survey g limit T (f :: fs))
    (next : f.remaining g = tr :: f.next.remaining g) (out : tr ∈ g.outgoing f.state)
    (room : fs.length < limit) (improves : improves T tr.state (fs.length + 1) = true)
    (state : frame.state = tr.state) (proper : frame.Proper g) (unused : frame.tried = 0) :
    Survey g limit (improve T tr.state (fs.length + 1)) (frame :: f.next :: fs) := by
  have placed : Placed (improve T tr.state (fs.length + 1)) (f.next :: fs) :=
    (Placed.cons (f := f.next) h.placed.tail h.placed.top).improve improves (Nat.le_refl _)
  have recorded (q : StateId) : improve T tr.state (fs.length + 1) q =
      if q = tr.state then some (fs.length + 1) else T q := improve_of_improves improves q
  refine ⟨placed.cons ?_, ?_, ?_, ?_⟩
  · rw [recorded, if_pos state]
    rfl
  · intro s d hs
    rw [recorded] at hs
    split at hs
    · subst s
      obtain ⟨ts, route, length⟩ := h.routes _ _ h.placed.top
      refine ⟨ts ++ [tr], route.outgoing out, ?_⟩
      rw [List.length_append, length]
      exact Option.some.inj hs
    · exact h.routes s d hs
  · intro s d hs
    rw [recorded] at hs
    split at hs
    · have := Option.some.inj hs
      omega
    · exact h.bounded s d hs
  · intro s d hs lt tr' out'
    by_cases same : s = tr.state
    · -- All transitions of the state itself are still to be taken.
      refine .inr ⟨frame, List.mem_cons_self, state.trans same.symm, ?_⟩
      refine (proper.remaining_perm unused).mem_iff.2 ?_
      rwa [state, ← same]
    · rw [recorded, if_neg same] at hs
      rcases h.swept s d hs lt tr' out' with ⟨k, le, settled⟩ | ⟨f', hf', state', remaining⟩
      · obtain ⟨k', le', settled'⟩ := exists_improve_of_some settled
        exact .inl ⟨k', Nat.le_trans le' le, settled'⟩
      · rcases List.mem_cons.1 hf' with rfl | hf'
        · rw [next] at remaining
          rcases List.mem_cons.1 remaining with rfl | remaining
          · -- The transition that was just taken leads one deeper than its source.
            subst state'
            rw [h.placed.top, Option.some.injEq] at hs
            subst hs
            exact .inl (exists_improve T _ _)
          · exact .inr ⟨_, List.mem_cons_of_mem _ List.mem_cons_self, state', remaining⟩
        · exact .inr ⟨f', List.mem_cons_of_mem _ (List.mem_cons_of_mem _ hf'), state', remaining⟩

/-- An open frame takes its next transition.  The state it leads to becomes open unless it is left at
    once, because it is known, or ends here, or lies at the limit. -/
theorem cross {left : Bool} (h : Survey g limit T (f :: fs))
    (next : f.remaining g = tr :: f.next.remaining g) (out : tr ∈ g.outgoing f.state)
    (room : fs.length < limit) (state : frame.state = tr.state) (proper : frame.Proper g)
    (unused : frame.tried = 0) (left_eq : left = (!improves T tr.state (fs.length + 1) ||
      g.isEnd tr.state || decide (limit ≤ fs.length + 1))) :
    Survey g limit (improve T tr.state (fs.length + 1))
      (if left then f.next :: fs else frame :: f.next :: fs) := by
  cases better : improves T tr.state (fs.length + 1) with
  | false =>
    rw [better] at left_eq
    rw [left_eq, improve_of_not_improves better]
    exact h.cross_known next better
  | true =>
    have crossed := h.cross_improved next out room better state proper unused
    cases left with
    | false => exact crossed
    | true =>
      rw [better, Bool.not_true, Bool.false_or, eq_comm, Bool.or_eq_true, decide_eq_true_eq] at left_eq
      refine crossed.drop (left_eq.imp_left fun isEnd => ?_)
      rw [state, StateGraph.outgoing, if_pos isEnd]

/-! ## Surveys without open frames -/

/-- When no frame is open, no state is recorded deeper than it is away. -/
theorem exists_le (h : Survey g limit T []) (root : T 0 = some 0) (distance : g.Distance s d)
    (within : d ≤ limit) : ∃ k ≤ d, T s = some k := by
  -- Along a shortest route: each state on it is recorded no deeper than it is away.
  induction d generalizing s with
  | zero =>
    obtain rfl := distance.eq_root
    exact ⟨0, Nat.le_refl 0, root⟩
  | succ d ih =>
    obtain ⟨before, nearer, tr, out, rfl⟩ := distance.predecessor
    obtain ⟨k, le, recorded⟩ := ih nearer (Nat.le_of_succ_le within)
    -- No frame is open, so the last transition of the route leads to a recorded state.
    rcases h.swept before k recorded (by omega) tr out with ⟨k', le', settled⟩ | ⟨f, hf, -, -⟩
    · exact ⟨k', by omega, settled⟩
    · cases hf

/-- When no frame is open, the recorded depths are the distances within the limit. -/
theorem recorded_iff (h : Survey g limit T []) (root : T 0 = some 0) :
    T s = some d ↔ g.Distance s d ∧ d ≤ limit := by
  constructor
  · intro recorded
    obtain ⟨ts, route, length⟩ := h.routes s d recorded
    obtain ⟨k, distance⟩ := route.reachable.exists_distance
    have le : k ≤ d := length ▸ distance.le route
    have bounded := h.bounded s d recorded
    obtain ⟨k', le', recorded'⟩ := h.exists_le root distance (Nat.le_trans le bounded)
    rw [recorded, Option.some.injEq] at recorded'
    have same : k = d := by omega
    exact ⟨same ▸ distance, bounded⟩
  · rintro ⟨distance, within⟩
    obtain ⟨k, le, recorded⟩ := h.exists_le root distance within
    obtain ⟨ts, route, length⟩ := h.routes s k recorded
    have ge : d ≤ k := length ▸ distance.le route
    rw [recorded, Nat.le_antisymm le ge]

end Survey

/-! ## Work -/

/-- Bounds the transitions that are still to be taken: those of the open frames, and those of each
    state once for every depth below the one that is recorded for it. -/
def work (g : StateGraph) (T : StateId → Option Nat) (opened : List Frame) : Nat :=
  ∑ s ∈ Finset.range g.size, (T s).getD (g.size + 1) * (g.outgoing s).length +
    (opened.map fun f => (f.remaining g).length).sum

theorem work_cross_known (T : StateId → Option Nat) (fs : List Frame)
    (next : f.remaining g = tr :: f.next.remaining g) :
    work g T (f.next :: fs) + 1 = work g T (f :: fs) := by
  simp only [work, List.map_cons, List.sum_cons, next, List.length_cons]
  omega

theorem work_improve (opened : List Frame) (improves : improves T s d = true) (inside : s < g.size)
    (deep : d ≤ g.size) :
    work g (improve T s d) opened + (g.outgoing s).length ≤ work g T opened := by
  -- Only the summand of the state itself changes.
  have split (U : StateId → Option Nat) : ∑ q ∈ Finset.range g.size,
      (U q).getD (g.size + 1) * (g.outgoing q).length =
        (U s).getD (g.size + 1) * (g.outgoing s).length +
          ∑ q ∈ (Finset.range g.size).erase s, (U q).getD (g.size + 1) * (g.outgoing q).length :=
    (Finset.add_sum_erase _ (fun q => (U q).getD (g.size + 1) * (g.outgoing q).length)
      (Finset.mem_range.2 inside)).symm
  have others : ∑ q ∈ (Finset.range g.size).erase s,
      (improve T s d q).getD (g.size + 1) * (g.outgoing q).length =
        ∑ q ∈ (Finset.range g.size).erase s, (T q).getD (g.size + 1) * (g.outgoing q).length := by
    refine Finset.sum_congr rfl fun q hq => ?_
    rw [improve_of_improves improves, if_neg (Finset.ne_of_mem_erase hq)]
  -- What is recorded falls by one at least, and a state without a depth counts as deeper than all.
  have lower : d + 1 ≤ (T s).getD (g.size + 1) := by
    cases recorded : T s with
    | none => exact Nat.succ_le_succ deep
    | some k => exact lt_of_improves improves recorded
  have once := Nat.mul_le_mul_right (g.outgoing s).length lower
  rw [Nat.add_mul, Nat.one_mul] at once
  unfold work
  rw [split (improve T s d), split T, others, improve_of_improves improves, if_pos rfl,
    Option.getD_some]
  omega

/-- Every transition that is taken is one less to take, whether or not the state it leads to becomes
    open. -/
theorem work_cross {left : Bool} (next : f.remaining g = tr :: f.next.remaining g)
    (inside : tr.state < g.size) (deep : fs.length < g.size) (state : frame.state = tr.state)
    (proper : frame.Proper g) (unused : frame.tried = 0)
    (known : improves T tr.state (fs.length + 1) = false → left = true) :
    work g (improve T tr.state (fs.length + 1)) (if left then f.next :: fs else frame :: f.next :: fs) <
      work g T (f :: fs) := by
  have taken := work_cross_known T fs next
  have fresh : (frame.remaining g).length = (g.outgoing tr.state).length := by
    rw [(proper.remaining_perm unused).length_eq, state]
  have opens : work g (improve T tr.state (fs.length + 1)) (frame :: f.next :: fs) =
      work g (improve T tr.state (fs.length + 1)) (f.next :: fs) + (g.outgoing tr.state).length := by
    simp only [work, List.map_cons, List.sum_cons, fresh]
    omega
  cases better : improves T tr.state (fs.length + 1) with
  | false =>
    rw [known better, improve_of_not_improves better, if_pos rfl]
    omega
  | true =>
    -- What the new frame has to take was paid for by the depth that fell.
    have lower := work_improve (f.next :: fs) better inside deep
    cases left with
    | false =>
      rw [if_neg Bool.false_ne_true, opens]
      omega
    | true =>
      rw [if_pos rfl]
      omega

theorem work_close (g : StateGraph) (T : StateId → Option Nat) (f : Frame) (fs : List Frame) :
    work g T fs ≤ work g T (f :: fs) := by
  simp only [work, List.map_cons, List.sum_cons]
  omega

end Statewalk
