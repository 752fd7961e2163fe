import Statewalk.Proofs.EngineHistories

/-! # Nested exploration

What an engine explores above a choice point leaves the choice point as it was, and all that is below it.
Only a step forward that is made from there changes it: it takes the next choice.  So the choices are taken
one after the other, however deep the engine goes in between.
-/

namespace Statewalk

/-- The transitions of a stack are those that the frames below the top one took last. -/
theorem Stacked.transitions_eq {g : StateGraph} {f f' : Frame} {fs : List Frame} {ts ts' : List Transition}
    (h : Stacked g (f :: fs) ts) (h' : Stacked g (f' :: fs) ts') : ts = ts' := by
  induction fs generalizing f f' ts ts' with
  | nil =>
    cases h
    cases h'
    rfl
  | cons below fs ih =>
    cases h with
    | push stacked _ choice edge _ _ =>
      cases h' with
      | push stacked' _ choice' edge' _ _ =>
        rw [ih stacked stacked']
        simp_all

namespace GraphEngine

namespace Bench

/-- The operation leaves the choice point at height `n` where it is: it does not drop it, gives up what was
    tried only above it, and returns to no snapshot. -/
def Spares (n : Nat) (b : Bench) : Command → Prop
  | .step step => n ≤ (step.take b.engine).2.frames.length
  | .ignore _ | .snapshot => True
  | .restore _ => False
  | .resetChoice => n < b.engine.frames.length

/-- All operations leave the choice point at height `n` where it is. -/
def Nested (n : Nat) : Bench → List Command → Prop
  | _, [] => True
  | b, c :: cs => b.Spares n c ∧ (b.perform c).Nested n cs

/-- The transition that a step forward takes from the choice point at height `n`. -/
def departure? (n : Nat) (b : Bench) : Command → Option Transition
  | .step .forward =>
    if b.engine.frames.length = n ∧ b.engine.forward.1 = true then b.engine.forward.2.path.last? else none
  | _ => none

/-- The transitions that operations take from the choice point at height `n`. -/
def departures (n : Nat) : Bench → List Command → List Transition
  | _, [] => []
  | b, c :: cs => (b.departure? n c).toList ++ (b.perform c).departures n cs

end Bench

variable {g : StateGraph} {e : GraphEngine} {b : Bench} {top f : Frame} {rest above : List Frame}

/-! ## One operation -/

/-- The frames after an operation, and the transition that it took from the choice point `f` on top of
    `rest`. -/
inductive Bench.Passes (g : StateGraph) (f : Frame) (rest : List Frame) :
    List Frame → Option Transition → Prop where
  | idle (above : List Frame) : Passes g f rest (above ++ f :: rest) none
  | departs (above : List Frame) {i : Nat} {edge : Edge} : f.choices[f.tried]? = some i →
      (g.edges f.state)[i]? = some edge → Passes g f rest (above ++ f.next :: rest) (some edge.transition)

section Operation

variable {c : Command} (h : b.engine.WellFormed g) (spares : b.Spares (rest.length + 1) c)

include h spares

/-- At a choice point only a step forward can take a choice, and it takes the next one. -/
theorem Bench.passes_at (frames : b.engine.frames = f :: rest) :
    Passes g f rest (b.perform c).engine.frames (b.departure? (rest.length + 1) c) := by
  have idle (stays : (b.perform c).engine.frames = f :: rest) (none : b.departure? (rest.length + 1) c = none) :
      Passes g f rest (b.perform c).engine.frames (b.departure? (rest.length + 1) c) := by
    rw [stays, none]
    exact .idle []
  cases c with
  | step step =>
    cases step with
    | forward =>
      by_cases lt : f.tried < f.choices.length
      · obtain ⟨i, edge, choice, hedge, -, -, forward⟩ := h.forward_of_tried_lt frames lt
        simp only [perform, Step.take, departure?, frames, forward, List.length_cons, and_self, if_true]
        exact .departs [_] choice hedge
      · have done := Nat.le_antisymm (frames ▸ h.stacked).proper.tried_le (Nat.not_lt.1 lt)
        have forward := forward_of_tried_eq frames done
        exact idle ((congrArg (·.2.frames) forward).trans frames) (by simp [departure?, forward])
    | backtrack =>
      cases rest with
      | nil => exact idle (by simpa [perform, Step.take, backtrack_root frames] using frames) rfl
      | cons below rest =>
        -- The step would drop the choice point.
        have stays : rest.length + 2 ≤ b.engine.backtrack.2.frames.length := spares
        rw [backtrack_of_frames frames] at stays
        exact absurd stays (Nat.not_succ_le_self _)
  | ignore _ | snapshot => exact idle frames rfl
  | restore _ => exact spares.elim
  | resetChoice => simp [Spares, frames] at spares

/-- Above a choice point every operation leaves it alone. -/
theorem Bench.passes_above (frames : b.engine.frames = top :: (above ++ f :: rest)) :
    Passes g f rest (b.perform c).engine.frames (b.departure? (rest.length + 1) c) := by
  have high : b.engine.frames.length ≠ rest.length + 1 := by
    simp [frames]
    omega
  have none : b.departure? (rest.length + 1) c = none := by
    unfold departure?
    split
    · simp [high]
    · rfl
  rw [none]
  cases c with
  | step step =>
    cases step with
    | forward =>
      simp only [perform, Step.take]
      rcases h.forward_cases frames with ⟨edge, enters⟩ | ⟨-, stuck⟩
      · have forward : b.engine.forward = _ := enters.forward
        rw [forward]
        exact .idle (_ :: top.next :: above)
      · have forward : b.engine.forward = _ := stuck
        rw [forward]
        exact frames ▸ .idle (top :: above)
    | backtrack =>
      simp only [perform, Step.take]
      cases above with
      | nil => exact backtrack_of_frames frames ▸ .idle []
      | cons below above => exact backtrack_of_frames frames ▸ .idle (below :: above)
  | ignore _ | snapshot => exact frames ▸ .idle (top :: above)
  | restore _ => exact spares.elim
  | resetChoice =>
    simp only [perform, resetChoice, frames]
    exact .idle (_ :: above)

end Operation

/-! ## Sequences of operations -/

/-- The choice point has taken its next choices in order, and what is below it did not change. -/
theorem Bench.Sound.nested {operations : List Command} (h : b.Sound g) (above : List Frame)
    (frames : b.engine.frames = above ++ f :: rest) (nested : b.Nested (rest.length + 1) operations) :
    let taken := b.departures (rest.length + 1) operations
    (∃ above', (b.after operations).engine.frames =
      above' ++ { f with tried := f.tried + taken.length } :: rest) ∧
    ∀ k tr, taken[k]? = some tr → ∃ i edge, f.choices[f.tried + k]? = some i ∧
      (g.edges f.state)[i]? = some edge ∧ tr = edge.transition := by
  induction operations generalizing b f above with
  | nil => exact ⟨⟨above, frames⟩, by simp [departures]⟩
  | cons c operations ih =>
    obtain ⟨spares, nested⟩ := nested
    have passes : Passes g f rest (b.perform c).engine.frames (b.departure? (rest.length + 1) c) := by
      cases above with
      | nil => exact passes_at h.engine.wellFormed spares frames
      | cons top above => exact passes_above h.engine.wellFormed spares frames
    simp only [departures]
    generalize frames' : (b.perform c).engine.frames = fs, b.departure? (rest.length + 1) c = departure
      at passes
    cases passes with
    | idle above' => exact ih (h.perform c) above' frames' nested
    | @departs above' i edge choice hedge =>
      obtain ⟨⟨above'', later⟩, taken⟩ := ih (h.perform c) above' frames' nested
      refine ⟨⟨above'', ?_⟩, fun k tr found => ?_⟩
      · refine later.trans ?_
        simp [Frame.next, Nat.add_assoc, Nat.add_comm 1]
      · cases k with
        | zero => exact ⟨i, edge, choice, hedge, (Option.some.inj found).symm⟩
        | succ k =>
          obtain ⟨i', edge', choice', rest'⟩ := taken k tr found
          refine ⟨i', edge', ?_, rest'⟩
          rwa [Nat.add_comm k, ← Nat.add_assoc]

/-! ## Back at a choice point -/

theorem WellFormed.forward_fst_iff (h : WellFormed g e) (frames : e.frames = top :: rest) :
    e.forward.1 = false ↔ top.tried = top.choices.length := by
  by_cases done : top.tried = top.choices.length
  · simp [forward_of_tried_eq frames done, done]
  · have lt := Nat.lt_of_le_of_ne (frames ▸ h.stacked).proper.tried_le done
    obtain ⟨_, _, _, _, _, _, moved⟩ := h.forward_of_tried_lt frames lt
    simp [moved, done]

/-- Two engines on top of the same choice points in the same state came there on the same path. -/
theorem WellFormed.place_eq {e' : GraphEngine} (h : WellFormed g e) (h' : WellFormed g e')
    (frames : e.frames = top :: rest) (frames' : e'.frames = f :: rest) (state : top.state = f.state) :
    e.path = e'.path ∧ e.threads = e'.threads := by
  have recent := (frames ▸ h.stacked).transitions_eq (frames' ▸ h'.stacked)
  refine ⟨congrArg₂ Path.mk (h.application.trans h'.application.symm) recent, ?_⟩
  rw [h.threads, h'.threads, current_of_frames frames, current_of_frames frames', state]

theorem WellFormed.tried_of_forward (h : WellFormed g e) (moved : e.forward.1 = true)
    (frames : e.forward.2.frames = top :: rest) : top.tried = 0 := by
  obtain ⟨from_, below, before⟩ := h.exists_frames
  rcases h.forward_cases before with ⟨edge, enters⟩ | ⟨-, stuck⟩
  · have forward : e.forward = _ := enters.forward
    rw [forward] at frames
    cases frames
    rfl
  · have forward : e.forward = _ := stuck
    simp [forward] at moved

/-- Steps forward and back enter the targets of all choices that are left, and end where none is. -/
theorem WellFormed.fanUpTo {n : Nat} (h : WellFormed g e) (frames : e.frames = top :: rest)
    (enough : top.choices.length < top.tried + n) :
    (fanUpTo n e).1 = (top.remaining g).map Transition.state ∧
      (GraphEngine.fanUpTo n e).2.forward.1 = false := by
  induction n generalizing e top with
  | zero => exact absurd (frames ▸ h.stacked).proper.tried_le (Nat.not_le.2 enough)
  | succ n ih =>
    by_cases done : top.tried = top.choices.length
    · simp only [GraphEngine.fanUpTo, forward_of_tried_eq frames done, Frame.remaining_eq_nil done]
      exact ⟨rfl, (h.stall.forward_fst_iff frames).2 done⟩
    · have lt := Nat.lt_of_le_of_ne (frames ▸ h.stacked).proper.tried_le done
      obtain ⟨i, edge, choice, hedge, -, remaining, forward⟩ := h.forward_of_tried_lt frames lt
      have back := (h.enter frames lt choice hedge).backtrack rfl
      obtain ⟨states, dead⟩ := ih back rfl (by simp only [Frame.next]; omega)
      simp only [GraphEngine.fanUpTo, forward, remaining, List.map_cons]
      exact ⟨congrArg (edge.target :: ·) states, dead⟩

/-- Whatever is explored above a choice point, an engine that is back there has the same choice points below,
    the same path and the same threads.  Its steps forward from there took the choices in order, and there is
    one for each choice that was left; after that the engine is stuck there.  So steps forward and back from a
    state that was just entered go along each of its edges once. -/
theorem nested_exploration_keeps_choice_point {e₀ : GraphEngine} (made : ofGraph g = .ok e₀)
    (order : e = e₀ ∨ ∃ seed, e = e₀.withRandomChoices seed) (history : List Command) :
    let b := Bench.after { engine := e } history
    ∃ top rest, b.engine.frames = top :: rest ∧
      (∀ operations, b.Nested (rest.length + 1) operations →
        let later := (b.after operations).engine
        let taken := b.departures (rest.length + 1) operations
        (∀ k tr, taken[k]? = some tr → ∃ i edge, top.choices[top.tried + k]? = some i ∧
          (g.edges top.state)[i]? = some edge ∧ tr = edge.transition) ∧
        (later.frames.length = rest.length + 1 →
          later.frames = { top with tried := top.tried + taken.length } :: rest ∧
          later.path = b.engine.path ∧ later.threads = b.engine.threads ∧
          (later.forward.1 = false ↔ taken.length = top.choices.length - top.tried))) ∧
      ((history = [] ∨ ∃ earlier, history = earlier ++ [.step .forward] ∧
          (Bench.after { engine := e } earlier).engine.forward.1 = true) → top.tried = 0) ∧
      (top.tried = 0 → g.isEnd top.state = false →
        (fan b.engine).1.Perm ((g.edges top.state).map Edge.target) ∧
          (fan b.engine).2.forward.1 = false) := by
  intro b
  have fresh : Fresh g e := by
    rcases order with rfl | ⟨seed, rfl⟩
    · exact fresh_ofGraph made
    · exact (fresh_ofGraph made).withRandomChoices seed
  have sound (history : List Command) : (Bench.after { engine := e } history).Sound g :=
    (Bench.sound_of_fresh fresh).after history
  have placed : b.engine.WellFormed g := (sound history).engine.wellFormed
  obtain ⟨top, rest, frames⟩ := placed.exists_frames
  have proper : top.Proper g := (frames ▸ placed.stacked).proper
  refine ⟨top, rest, frames, fun operations nested => ?_, ?_, fun unused lasting => ?_⟩
  · intro later taken
    obtain ⟨⟨above, after⟩, choices⟩ := (sound history).nested [] frames nested
    refine ⟨choices, fun back => ?_⟩
    have none : above = [] := by
      rw [after] at back
      simpa using back
    subst none
    have wellFormed : later.WellFormed g := ((sound history).after operations).engine.wellFormed
    obtain ⟨path, threads⟩ := wellFormed.place_eq placed after frames rfl
    refine ⟨after, path, threads, (wellFormed.forward_fst_iff after).trans ?_⟩
    have within := proper.tried_le
    show top.tried + taken.length = top.choices.length ↔ _
    omega
  · rintro (rfl | ⟨earlier, rfl, moved⟩)
    · obtain ⟨choices, start⟩ := fresh.frames
      cases frames.symm.trans start
      rfl
    · have last : b = (Bench.after { engine := e } earlier).perform (.step .forward) := List.foldl_append
      rw [last] at frames
      exact (sound earlier).engine.wellFormed.tried_of_forward moved frames
  · obtain ⟨states, dead⟩ := placed.fanUpTo frames (n := top.choices.length + 1) (by omega)
    have fanned : fan b.engine = GraphEngine.fanUpTo (top.choices.length + 1) b.engine := by
      simp [fan, frames]
    rw [fanned, states]
    refine ⟨((proper.remaining_perm unused).map _).trans (.of_eq ?_), dead⟩
    simp [StateGraph.outgoing, lasting, Edge.transition]

/-- The engine goes twice along the loop of the initial state, starts over up there and comes back. -/
theorem tangle_nested_exploration : ∃ e, ofGraph .tangle = .ok e ∧
    let b : Bench := { engine := e }
    let operations := [.step .forward, .step .forward, .resetChoice, .step .backtrack, .step .backtrack]
    b.Nested 1 operations ∧ (b.after operations).engine.path = e.path ∧
      (b.after operations).engine.threads = e.threads ∧ (fan e).1.Perm [0, 1, 1] := by
  obtain ⟨e, made⟩ : ∃ e, ofGraph .tangle = .ok e := ⟨_, rfl⟩
  refine ⟨e, made, ?_⟩
  obtain ⟨top, rest, frames, nested, fresh, all⟩ :=
    nested_exploration_keeps_choice_point made (.inl rfl) []
  cases made
  cases frames
  intro b operations
  have le {n m : Nat} (h : Nat.ble n m = true) : n ≤ m := Nat.le_of_ble_eq_true h
  have spared : b.Nested 1 operations := ⟨le rfl, le rfl, le rfl, le rfl, le rfl, trivial⟩
  obtain ⟨-, path, threads, -⟩ := (nested operations spared).2 rfl
  exact ⟨spared, path, threads, (all rfl rfl).1⟩

end GraphEngine

end Statewalk
