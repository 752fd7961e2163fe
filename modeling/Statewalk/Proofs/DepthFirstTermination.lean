import Mathlib.Algebra.BigOperators.Ring.Finset
import Statewalk.Proofs.DepthFirstBudgets
import Statewalk.Proofs.DepthRecords
import Statewalk.Proofs.DepthSurvey

/-! # Termination of depth-first search

Over a valid graph a depth-first search comes to its end, whatever its restrained listeners do: whether
they have it step back, mark states or ask for newness.  It is thrifty besides.  If states are matched as
such, each transition is taken at most once.  If they are matched by depth, a state is expanded again
only at a smaller depth than before.
-/

namespace Statewalk

/-! ## Thrift -/

/-- The state that the last of the moves entered, all moves given the latest first. -/
def entered? : List Entry → Option StateId
  | [] => some 0
  | .crossed _ tr _ :: _ => some tr.state
  | _ => none

/-- The states out of which the moves lead right after they were entered, and at which depth. -/
def expansionsOf : List Entry → List (StateId × Nat)
  | [] => []
  | .moved .forward depth _ :: older => (entered? older).toList.map (·, depth) ++ expansionsOf older
  | _ :: older => expansionsOf older

namespace Journal

/-- The states that were expanded, with their depths, the latest first.  To expand a state is to step
    forward from it for the first time since it was entered. -/
def expansions (j : Journal) : List (StateId × Nat) :=
  expansionsOf j.moves

/-- Each transition was taken out of a reachable state, and at most as often as the state has it. -/
structure CrossesOnce (g : StateGraph) (j : Journal) : Prop where
  reachable : ∀ c ∈ j.crossings, g.Reachable c.source
  once : ∀ s tr, (j.crossings.map Crossing.step).count (s, tr) ≤ (g.outgoing s).count tr

/-- No state was expanded again but at a smaller depth. -/
def ExpandsUpward (j : Journal) : Prop :=
  j.expansions.Pairwise fun later earlier => later.1 = earlier.1 → later.2 < earlier.2

theorem moves_record_of_not_advances {e : Entry} (j : Journal) (h : e.advances = false) :
    (j.record e).crossings = j.crossings ∧ (j.record e).expansions = j.expansions := by
  constructor
  · rw [crossings_record]
    cases e <;> first | exact List.append_nil _ | cases h
  · unfold expansions
    cases move : e.isMove with
    | false => rw [moves_record_of_not_move j move]
    | true =>
      rw [moves_record_of_move j move]
      cases e with
      | moved kind depth done => cases kind <;> first | rfl | cases h
      | crossed => cases h
      | _ => cases move

end Journal

/-! ## Matching states as such -/

theorem count_steps (g : StateGraph) (q s : StateId) (tr : Transition) :
    (g.steps q).count (s, tr) = if q = s then (g.outgoing s).count tr else 0 := by
  unfold StateGraph.steps
  split_ifs with same
  · subst same
    exact List.count_map_of_injective _ _ (fun _ _ eq => (Prod.mk.inj eq).2) tr
  · rw [List.count_eq_zero]
    intro member
    obtain ⟨_, -, eq⟩ := List.mem_map.1 member
    exact same (Prod.mk.inj eq).1

theorem count_flatMap_steps_le (g : StateGraph) {visited : List StateId} (nodup : visited.Nodup)
    (s : StateId) (tr : Transition) :
    (visited.flatMap g.steps).count (s, tr) ≤ if s ∈ visited then (g.outgoing s).count tr else 0 := by
  induction visited with
  | nil => simp
  | cons q qs ih =>
    obtain ⟨other, nodup⟩ := List.nodup_cons.1 nodup
    have rest := ih nodup
    rw [List.flatMap_cons, List.count_append, count_steps]
    by_cases same : q = s
    · subst same
      rw [if_neg other] at rest
      rw [if_pos rfl, if_pos List.mem_cons_self]
      omega
    · simpa [same, Ne.symm same] using rest

theorem Ledger.crossesOnce {g : StateGraph} {visited : List StateId} {j : Journal} {opened : List Frame}
    (h : Ledger g visited j.crossings opened) : j.CrossesOnce g := by
  have taken : (j.crossings.map Crossing.step).Subperm (visited.flatMap g.steps) :=
    (List.sublist_append_left _ _).subperm.trans h.balance.subperm
  constructor
  · intro c member
    have step := taken.subset (List.mem_map_of_mem (f := Crossing.step) member)
    obtain ⟨s, visit, out⟩ := List.mem_flatMap.1 step
    obtain ⟨_, -, eq⟩ := List.mem_map.1 out
    exact (Prod.mk.inj eq).1 ▸ h.reachable s visit
  · intro s tr
    have bound := (taken.count_le (s, tr)).trans (count_flatMap_steps_le g h.nodup s tr)
    split_ifs at bound
    · exact bound
    · exact bound.trans (Nat.zero_le _)

namespace Run

variable {P : Type} {g : StateGraph} {answer : Bool} {r r' : Run GraphEngine P} {top : Frame}
  {rest : List Frame} {edge : Edge}

/-- The frames from the current one on, or from the one below it. -/
def liveFrames (answer : Bool) (r : Run GraphEngine P) : List Frame :=
  if answer then r.engine.frames else r.engine.frames.tail

theorem liveFrames_true (frames : r.engine.frames = top :: rest) : r.liveFrames true = top :: rest := by
  rw [liveFrames, if_pos rfl, frames]

theorem liveFrames_false (frames : r.engine.frames = top :: rest) : r.liveFrames false = rest := by
  rw [liveFrames, if_neg Bool.false_ne_true, frames, List.tail_cons]

theorem liveFrames_stepped_of_stuck (frames : r.engine.frames = top :: rest)
    (stuck : Engine.forward r.engine = (false, r.engine.stall)) : r.stepped.liveFrames false = rest := by
  have engine := engine_stepped_of_stuck stuck
  have same : r.stepped.engine.frames = top :: rest := by
    rw [engine]
    exact frames
  exact liveFrames_false same

theorem liveFrames_stepped_of_enters (enters : GraphEngine.Enters g r.engine top rest edge)
    (answer : Bool) : r.stepped.liveFrames answer = if !answer then top.next :: rest else
      GraphEngine.entered edge { r.engine with frames := top.next :: rest } :: top.next :: rest := by
  have engine := engine_stepped_of_enters enters
  rw [liveFrames, engine, GraphEngine.frames_enter]
  cases answer <;> rfl

/-- The open frames of the run are in its ledger, with whatever was abandoned before it was done. -/
def Booked (g : StateGraph) (answer : Bool) (r : Run GraphEngine P) : Prop :=
  ∃ abandoned, Ledger g r.engine.visited r.journal.crossings (r.liveFrames answer ++ abandoned)

theorem Booked.akin (h : r.Booked g answer) (akin : Akin r r') : r'.Booked g answer := by
  obtain ⟨abandoned, ledger⟩ := h
  refine ⟨abandoned, ?_⟩
  unfold liveFrames at ledger ⊢
  rw [akin.visited, akin.crossings, akin.frames]
  exact ledger

end Run

namespace DepthFirst

variable {P : Type} {g : StateGraph}

open Run

theorem regime_plain (valid : g.validate = .ok ()) :
    Regime (P := P) g (Ledger.total g) false (fun answer r => answer = r.engine.isNew ∧ r.Booked g answer)
      (fun answer r => r.Booked g answer) (Journal.CrossesOnce g) where
  arrived_akin answer r r' akin h := ⟨h.1.trans akin.isNew.symm, h.2.akin akin⟩
  held_akin answer r r' akin h := h.akin akin
  arrived_thrifty answer r h := by
    obtain ⟨-, _, ledger⟩ := h
    exact ledger.crossesOnce
  held_thrifty answer r h := by
    obtain ⟨_, ledger⟩ := h
    exact ledger.crossesOnce
  thrifty_record e j silent h := by
    have kept := (Journal.moves_record_of_not_advances j silent).1
    constructor
    · rw [kept]
      exact h.reachable
    · rw [kept]
      exact h.once
  bounded answer r h := by
    obtain ⟨-, _, ledger⟩ := h
    exact ledger.crossings_le valid
  ask answer given depths r standing h judged := by
    rw [judge_of_plain standing.config] at judged
    cases judged
    exact ⟨h.1.symm, h.2⟩
  again given depths r standing h judged := h
  moves r top rest edge standing h enters := by
    obtain ⟨abandoned, ledger⟩ := h
    rw [liveFrames_true enters.frames] at ledger
    have engine := engine_stepped_of_enters enters
    have isNew : r.stepped.engine.isNew = decide (edge.target ∉ r.engine.visited) :=
      congrArg GraphEngine.isNew engine
    refine ⟨_, rfl, abandoned, ?_⟩
    show Ledger g r.stepped.engine.visited _ (r.stepped.liveFrames r.stepped.engine.isNew ++ abandoned)
    rw [liveFrames_stepped_of_enters enters, isNew, crossings_stepped_of_enters enters, engine]
    by_cases seen : edge.target ∈ r.engine.visited
    · -- The state is known: its frame is not opened.
      have crossed := ledger.cross_known enters.remaining seen
      simpa [seen] using crossed
    · have proper : (GraphEngine.entered edge { r.engine with frames := top.next :: rest }).Proper g := by
        rw [← standing.wellFormed.graph]
        exact GraphEngine.proper_entered edge _
      have crossed := ledger.cross_new enters.remaining enters.outgoing seen rfl proper rfl
      simpa [seen] using crossed
  stuck r top rest standing h frames spent stuck := by
    obtain ⟨abandoned, ledger⟩ := h
    rw [liveFrames_true frames] at ledger
    have engine := engine_stepped_of_stuck stuck
    have closed := Ledger.close ledger (Frame.remaining_eq_nil spent)
    refine ⟨?_, abandoned, ?_⟩
    · rw [engine]
      rfl
    · rw [liveFrames_stepped_of_stuck frames stuck, crossings_stepped_of_stuck stuck, engine]
      exact closed
  back answer r top below rest standing h frames := by
    obtain ⟨abandoned, ledger⟩ := h
    have engine := engine_stepBack_of_frames frames
    have crossings := Run.crossings_stepBack r
    simp only [Booked, liveFrames, if_true, crossings]
    rw [engine, GraphEngine.frames_popped, GraphEngine.visited_popped]
    cases answer with
    | false =>
      refine ⟨abandoned, ?_⟩
      rw [liveFrames_false frames] at ledger
      exact ledger
    | true =>
      -- Whatever the frame had still to take is abandoned.
      refine ⟨top :: abandoned, ?_⟩
      rw [liveFrames_true frames] at ledger
      exact ledger.perm List.perm_middle.symm

end DepthFirst

/-! ## Matching by depth -/

namespace Run

variable {P : Type} {g : StateGraph} {total : Nat} {answer : Bool} {T : StateId → Option Nat}
  {fs : List Frame} {r r' : Run GraphEngine P}

/-- With the recorded depths, there is work for the transitions yet to be taken, and every state that
    was expanded is recorded at most as deep. -/
structure Paid (g : StateGraph) (total : Nat) (T : StateId → Option Nat) (fs : List Frame)
    (r : Run GraphEngine P) : Prop where
  placed : Placed T fs
  work : work g T fs + r.journal.crossings.length ≤ total
  recorded : ∀ s, (T s).isSome = true → s < g.size ∧ s ∈ r.engine.visited
  expanded : ∀ x ∈ r.journal.expansions, ∃ k ≤ x.2, T x.1 = some k
  upward : r.journal.ExpandsUpward

/-- If the current state was just entered, it was not expanded before but deeper. -/
def Unexpanded (r : Run GraphEngine P) : Prop :=
  ∀ s, entered? r.journal.moves = some s →
    s = r.engine.current ∧ ∀ x ∈ r.journal.expansions, x.1 = s → r.depth < x.2

/-- The open frames are paid for, and a state that is new can be expanded. -/
structure Solvent (g : StateGraph) (total : Nat) (T : StateId → Option Nat) (answer : Bool)
    (r : Run GraphEngine P) : Prop where
  paid : r.Paid g total T (r.liveFrames answer)
  unexpanded : answer = true → r.Unexpanded

/-- The run will be solvent once the current state is recorded at the current depth. -/
structure Arriving (g : StateGraph) (total : Nat) (answer : Bool) (r : Run GraphEngine P) : Prop where
  answer_eq : answer = improves r.depths.find? r.engine.current r.depth
  unrecorded : r.engine.isNew = true → r.depths.find? r.engine.current = none
  solvent : r.Solvent g total (improve r.depths.find? r.engine.current r.depth) answer

/-- What is recorded counts only through the depths. -/
theorem Solvent.congr (h : r.Solvent g total T answer) (frames : r'.engine.frames = r.engine.frames)
    (visited : r'.engine.visited = r.engine.visited) (depth : r'.depth = r.depth)
    (moves : r'.journal.moves = r.journal.moves) : r'.Solvent g total T answer := by
  have expansions : r'.journal.expansions = r.journal.expansions := by
    rw [Journal.expansions, moves, Journal.expansions]
  have crossings : r'.journal.crossings = r.journal.crossings := by
    rw [Journal.crossings_eq_moves, moves, Journal.crossings_eq_moves]
  have opened : r'.liveFrames answer = r.liveFrames answer := by
    rw [liveFrames, frames, liveFrames]
  refine ⟨⟨?_, ?_, ?_, ?_, ?_⟩, ?_⟩
  · rw [opened]
    exact h.paid.placed
  · rw [opened, crossings]
    exact h.paid.work
  · rw [visited]
    exact h.paid.recorded
  · rw [expansions]
    exact h.paid.expanded
  · rw [Journal.ExpandsUpward, expansions]
    exact h.paid.upward
  · intro new
    have current : r'.engine.current = r.engine.current := by
      rw [GraphEngine.current, frames, GraphEngine.current]
    rw [Unexpanded, moves, current, expansions, depth]
    exact h.unexpanded new

theorem Solvent.akin (h : r.Solvent g total T answer) (akin : Akin r r') : r'.Solvent g total T answer :=
  h.congr akin.frames akin.visited akin.depth akin.moves

theorem Arriving.akin (h : r.Arriving g total answer) (akin : Akin r r') :
    r'.Arriving g total answer := by
  constructor
  · rw [akin.depths, akin.current, akin.depth]
    exact h.answer_eq
  · rw [akin.isNew, akin.depths, akin.current]
    exact h.unrecorded
  · rw [akin.depths, akin.current, akin.depth]
    exact h.solvent.akin akin

/-- To judge a state by depth is to record it if that improves on what is recorded. -/
theorem find?_of_judged {given : Bool} {depths : DepthTable} (byDepth : r.config.matchByMinDepth = true)
    (unrecorded : r.engine.isNew = true → r.depths.find? r.engine.current = none)
    (judged : r.judge = .ok (given, depths)) :
    given = improves r.depths.find? r.engine.current r.depth ∧
      depths.find? = improve r.depths.find? r.engine.current r.depth := by
  have how := judged_judge byDepth
  rw [judged] at how
  cases how with
  | recorded set old =>
    have better : improves r.depths.find? r.engine.current r.depth = true := by
      cases new : r.engine.isNew with
      | true => simp [improves, unrecorded new]
      | false =>
        obtain ⟨d, found, less⟩ := old new
        have found : r.depths.find? r.engine.current = some d := found
        simpa [improves, found] using less
    refine ⟨better.symm, ?_⟩
    funext q
    rw [improve_of_improves better]
    exact DepthTable.find?_set set q
  | known _ found le =>
    have found : r.depths.find? r.engine.current = some _ := found
    have known : improves r.depths.find? r.engine.current r.depth = false := by
      simpa [improves, found] using le
    exact ⟨known.symm, (improve_of_not_improves known).symm⟩

/-- A state that is recorded at the current depth stays so. -/
theorem find?_of_judged_again {given : Bool} {depths : DepthTable}
    (byDepth : r.config.matchByMinDepth = true)
    (recorded : r.depths.find? r.engine.current = some r.depth) (judged : r.judge = .ok (given, depths)) :
    depths.find? = r.depths.find? := by
  have how := judged_judge byDepth
  rw [judged] at how
  cases how with
  | recorded set _ =>
    funext q
    rw [DepthTable.find?_set set]
    split
    · rename_i same
      subst same
      exact recorded.symm
    · rfl
  | known => rfl

theorem Paid.length_le (h : r.Paid g total T fs) : fs.length ≤ g.size := by
  have sub : (fs.map Frame.state).Subperm (List.range g.size) := by
    apply h.placed.nodup.subperm
    intro s member
    obtain ⟨f, hf, rfl⟩ := List.mem_map.1 member
    obtain ⟨d, -, recorded⟩ := h.placed.depth_lt hf
    exact List.mem_range.2 (h.recorded _ (by simp [recorded])).1
  simpa using sub.length_le

section Opened

variable {top : Frame} {rest : List Frame} (standing : r.Standing g true)
  (h : r.Solvent g total T true) (frames : r.engine.frames = top :: rest)

include frames standing

theorem depth_of_frames : r.depth = rest.length := by
  have depth := standing.depth
  rw [frames, List.length_cons] at depth
  omega

include h

theorem recorded_current : T r.engine.current = some r.depth := by
  have placed := h.paid.placed
  rw [liveFrames_true frames] at placed
  rw [GraphEngine.current_of_frames frames, depth_of_frames standing frames]
  exact placed.top

/-- A step forward expands the current state, if it was just entered, at the depth that is recorded. -/
theorem expansions_attempt (done : Bool) :
    (∀ x ∈ expansionsOf (.moved .forward r.depth done :: r.journal.moves), ∃ k ≤ x.2, T x.1 = some k) ∧
      (expansionsOf (.moved .forward r.depth done :: r.journal.moves)).Pairwise
        fun later earlier => later.1 = earlier.1 → later.2 < earlier.2 := by
  have recorded := recorded_current standing h frames
  cases entered : entered? r.journal.moves with
  | none =>
    rw [expansionsOf, entered]
    exact ⟨h.paid.expanded, h.paid.upward⟩
  | some s =>
    obtain ⟨rfl, deeper⟩ := h.unexpanded rfl s entered
    rw [expansionsOf, entered]
    constructor
    · intro x member
      rcases List.mem_cons.1 member with rfl | member
      · exact ⟨r.depth, Nat.le_refl _, recorded⟩
      · exact h.paid.expanded x member
    · refine List.pairwise_cons.2 ⟨?_, h.paid.upward⟩
      exact fun x member same => deeper x member same.symm

omit standing h frames in
theorem placed_stepped {edge : Edge} (enters : GraphEngine.Enters g r.engine top rest edge)
    (placed : Placed T (top :: rest)) : Placed (improve T edge.target (rest.length + 1))
      (r.stepped.liveFrames (improves T edge.target (rest.length + 1))) := by
  have below : Placed T (top.next :: rest) := Placed.cons placed.tail placed.top
  rw [liveFrames_stepped_of_enters enters]
  cases better : improves T edge.target (rest.length + 1) with
  | false =>
    rw [improve_of_not_improves better]
    exact below
  | true =>
    refine (below.improve better (Nat.le_refl _)).cons ?_
    rw [improve_of_improves better, GraphEngine.state_entered, if_pos rfl]
    rfl

omit h frames in
/-- The depth that falls pays for the frame of the state that is entered. -/
theorem work_stepped_lt {edge : Edge} (enters : GraphEngine.Enters g r.engine top rest edge)
    (inside : edge.target < g.size) (deep : rest.length < g.size) :
    work g (improve T edge.target (rest.length + 1))
      (r.stepped.liveFrames (improves T edge.target (rest.length + 1))) < work g T (top :: rest) := by
  have proper : (GraphEngine.entered edge { r.engine with frames := top.next :: rest }).Proper g := by
    rw [← standing.wellFormed.graph]
    exact GraphEngine.proper_entered edge _
  have known : improves T edge.target (rest.length + 1) = false →
      (!improves T edge.target (rest.length + 1)) = true := by simp
  have paid := work_cross enters.remaining inside deep (GraphEngine.state_entered edge _) proper
    (GraphEngine.tried_entered edge _) known
  rw [← liveFrames_stepped_of_enters enters] at paid
  exact paid

theorem arriving_of_enters (valid : g.validate = .ok ()) (depths : T = r.depths.find?) {edge : Edge}
    (enters : GraphEngine.Enters g r.engine top rest edge) : ∃ answer,
      Arriving g total answer { r.stepped with depth := r.depth + 1 } := by
  have recorded := h.paid.recorded
  have length := h.paid.length_le
  have placed := h.paid.placed
  have affordable := h.paid.work
  obtain ⟨expanded, upward⟩ := expansions_attempt standing h frames true
  rw [liveFrames_true frames] at placed affordable length
  rw [List.length_cons] at length
  have inside : edge.target < g.size := by
    have reachable := (standing.wellFormed.route frames).reachable
    rw [GraphEngine.current_of_frames frames] at reachable
    exact (reachable.outgoing enters.outgoing).lt_size valid
  have engine := engine_stepped_of_enters enters
  -- What the step changes.
  generalize after : ({ r.stepped with depth := r.depth + 1 } : Run GraphEngine P) = r'
  have depths' : r'.depths.find? = T := by rw [← after, depths]; rfl
  have depth' : r'.depth = rest.length + 1 := by rw [← after, ← depth_of_frames standing frames]
  have engine' : r'.engine = GraphEngine.enter edge { r.engine with frames := top.next :: rest } := by
    rw [← after, ← engine]
  have current' : r'.engine.current = edge.target := by rw [engine']; rfl
  have crossings' := congrArg List.length (crossings_stepped_of_enters enters)
  have moves' := moves_stepped_of_enters enters
  have journal' : r'.journal = r.stepped.journal := by rw [← after]
  have expansions' : r'.journal.expansions =
      expansionsOf (.moved .forward r.depth true :: r.journal.moves) := by
    rw [Journal.expansions, journal', moves']
    rfl
  rw [← journal', List.length_append, List.length_singleton] at crossings'
  have opened (answer : Bool) : r'.liveFrames answer = r.stepped.liveFrames answer := by
    rw [← after]
    rfl
  have cheaper := work_stepped_lt (T := T) standing enters inside (by omega)
  refine ⟨improves T edge.target (rest.length + 1), ?_, ?_, ⟨⟨?_, ?_, ?_, ?_, ?_⟩, ?_⟩⟩
  · rw [depths', current', depth']
  · rw [depths', current', engine', GraphEngine.isNew_enter, decide_eq_true_eq]
    intro unseen
    by_contra known
    exact unseen (recorded _ (Option.isSome_iff_ne_none.2 known)).2
  · rw [depths', current', depth', opened]
    exact placed_stepped enters placed
  · rw [depths', current', depth', crossings', opened]
    omega
  · intro s some
    rw [depths', current', depth', isSome_improve] at some
    rw [engine', GraphEngine.mem_visited_enter]
    cases some with
    | inl same => exact ⟨same ▸ inside, .inl same⟩
    | inr known => exact ⟨(recorded s known).1, .inr (recorded s known).2⟩
  · intro x member
    rw [expansions'] at member
    obtain ⟨k, le, known⟩ := expanded x member
    rw [depths', current', depth']
    obtain ⟨k', le', known'⟩ := exists_improve_of_some (s := edge.target) (d := rest.length + 1) known
    exact ⟨k', Nat.le_trans le' le, known'⟩
  · rw [Journal.ExpandsUpward, expansions']
    exact upward
  · intro better s entered
    rw [journal', moves', entered?, Option.some.injEq] at entered
    have entered : s = edge.target := entered.symm
    refine ⟨by rw [current', entered], ?_⟩
    -- Before, the state was recorded deeper than it is now.
    intro x member same
    rw [expansions'] at member
    obtain ⟨k, le, known⟩ := expanded x member
    rw [same, entered] at known
    have deeper := lt_of_improves better known
    omega

/-- A state that has no more transitions to take is no longer open. -/
theorem arriving_of_stuck (depths : T = r.depths.find?)
    (stuck : Engine.forward r.engine = (false, r.engine.stall)) : r.stepped.Arriving g total false := by
  have recorded := recorded_current standing h frames
  have placed := h.paid.placed
  have work := h.paid.work
  obtain ⟨expanded, upward⟩ := expansions_attempt standing h frames false
  rw [liveFrames_true frames] at placed work
  have engine := engine_stepped_of_stuck stuck
  have current' : r.stepped.engine.current = r.engine.current := by rw [engine]; rfl
  have depths' : r.stepped.depths.find? = T := by rw [depths]; rfl
  have depth' : r.stepped.depth = r.depth := rfl
  have crossings' := crossings_stepped_of_stuck stuck
  have expansions' : r.stepped.journal.expansions =
      expansionsOf (.moved .forward r.depth false :: r.journal.moves) := by
    rw [Journal.expansions, moves_stepped_of_stuck stuck]
  have opened := liveFrames_stepped_of_stuck frames stuck
  have known : improves T r.engine.current r.depth = false := by simp [improves, recorded]
  constructor
  · rw [depths', current', depth', known]
  · rw [engine]
    intro new
    cases new
  · rw [depths', current', depth', improve_of_not_improves known]
    refine ⟨⟨?_, ?_, ?_, ?_, ?_⟩, by simp⟩
    · rw [opened]
      exact placed.tail
    · have closed := work_close g T top rest
      rw [opened, crossings']
      omega
    · rw [engine]
      exact h.paid.recorded
    · rw [expansions']
      exact expanded
    · rw [Journal.ExpandsUpward, expansions']
      exact upward

end Opened

/-- Whether or not the state was new, those below it are still open. -/
theorem solvent_of_back {top below : Frame} {rest : List Frame} (h : r.Solvent g total T answer)
    (frames : r.engine.frames = top :: below :: rest) (d : Nat) :
    Solvent g total T true { r.forgetQuery.stepBack.2 with depth := d } := by
  generalize after : ({ r.forgetQuery.stepBack.2 with depth := d } : Run GraphEngine P) = r'
  have engine' : r'.engine = r.engine.popped (below :: rest) := by
    rw [← after]
    exact engine_stepBack_of_frames frames
  have journal' : r'.journal = r.journal.record (.moved .backtrack r.depth r.forgetQuery.stepBack.1) := by
    rw [← after]
    rfl
  obtain ⟨crossings', expansions'⟩ := Journal.moves_record_of_not_advances r.journal
    (e := .moved .backtrack r.depth r.forgetQuery.stepBack.1) rfl
  rw [← journal'] at crossings' expansions'
  have opened : r'.liveFrames true = below :: rest := by
    rw [liveFrames, if_pos rfl, engine', GraphEngine.frames_popped]
  have placed : Placed T (below :: rest) ∧ work g T (below :: rest) + r.journal.crossings.length ≤ total := by
    have placed := h.paid.placed
    have work := h.paid.work
    cases answer with
    | true =>
      rw [liveFrames_true frames] at placed work
      have closed := work_close g T top (below :: rest)
      exact ⟨placed.tail, by omega⟩
    | false =>
      rw [liveFrames_false frames] at placed work
      exact ⟨placed, work⟩
  refine ⟨⟨?_, ?_, ?_, ?_, ?_⟩, ?_⟩
  · rw [opened]
    exact placed.1
  · rw [opened, crossings']
    exact placed.2
  · rw [engine', GraphEngine.visited_popped]
    exact h.paid.recorded
  · rw [expansions']
    exact h.paid.expanded
  · rw [Journal.ExpandsUpward, expansions']
    exact h.paid.upward
  · intro _ s entered
    rw [journal', Journal.moves_record_of_move _ rfl] at entered
    cases entered

end Run

namespace DepthFirst

open Run

variable {P : Type} {g : StateGraph} {total : Nat}

theorem regime_byDepth (valid : g.validate = .ok ()) :
    Regime (P := P) g total true (fun answer r => r.Arriving g total answer)
      (fun answer r => r.Solvent g total r.depths.find? answer) Journal.ExpandsUpward where
  arrived_akin answer r r' akin h := h.akin akin
  held_akin answer r r' akin h := by
    rw [akin.depths]
    exact h.akin akin
  arrived_thrifty answer r h := h.solvent.paid.upward
  held_thrifty answer r h := h.paid.upward
  thrifty_record e j silent h := by
    rw [Journal.ExpandsUpward, (Journal.moves_record_of_not_advances j silent).2]
    exact h
  bounded answer r h := by
    have work := h.solvent.paid.work
    omega
  ask answer given depths r standing h judged := by
    obtain ⟨rfl, found⟩ := find?_of_judged standing.config h.unrecorded judged
    refine ⟨h.answer_eq.symm, ?_⟩
    show Solvent g total depths.find? answer (r.answered _ depths)
    rw [found]
    exact h.solvent.congr rfl rfl rfl rfl
  again given depths r standing h judged := by
    obtain ⟨top, rest, frames⟩ := standing.wellFormed.exists_frames
    have found := find?_of_judged_again standing.config (recorded_current standing h frames) judged
    show Solvent g total depths.find? true (r.answered given depths)
    rw [found]
    exact h.congr rfl rfl rfl rfl
  moves r top rest edge standing h enters :=
    arriving_of_enters standing h enters.frames valid rfl enters
  stuck r top rest standing h frames spent stuck := arriving_of_stuck standing h frames rfl stuck
  back answer r top below rest standing h frames := solvent_of_back h frames _

/-! ## Runs -/

theorem length_flatMap_steps (g : StateGraph) (n : Nat) :
    ((List.range n).flatMap g.steps).length = ∑ s ∈ Finset.range n, (g.outgoing s).length := by
  induction n with
  | zero => rfl
  | succ n ih =>
    rw [List.range_succ, List.flatMap_append, List.length_append, ih, Finset.sum_range_succ]
    simp [StateGraph.steps]

/-- As long as nothing is recorded, each transition may be taken at every depth. -/
theorem work_unrecorded (g : StateGraph) : work g (fun _ => none) [] = (g.size + 1) * Ledger.total g := by
  rw [Ledger.total, length_flatMap_steps, Finset.mul_sum]
  simp [work]

/-- The run did nothing yet. -/
structure AtRest (g : StateGraph) (byDepth : Bool) (r : Run GraphEngine P) : Prop where
  config : r.config.matchByMinDepth = byDepth
  fresh : r.engine.Fresh g
  moves : r.journal.moves = []
  query : r.lastQuery = none
  depths : r.depths = {}

namespace AtRest

variable {byDepth : Bool} {r : Run GraphEngine P}

theorem record {e : Entry} (h : AtRest g byDepth r) (silent : e.isMove = false) :
    AtRest g byDepth (r.record e) :=
  ⟨h.config, h.fresh, (Journal.moves_record_of_not_move _ silent).trans h.moves, h.query, h.depths⟩

theorem poised {arrived held : Bool → Run GraphEngine P → Prop} (h : AtRest g byDepth r)
    (arrive : arrived true { r with matching := true, depth := 0 }) :
    Poised g total byDepth arrived held (2 * total + 2) { r with matching := true, depth := 0 } := by
  obtain ⟨choices, frames⟩ := h.fresh.frames
  refine ⟨⟨rfl, h.config, h.fresh.wellFormed, ?_⟩, true, ?_, .inl ⟨h.query, arrive⟩⟩
  · simp [frames]
  · simp [owed, frames, Journal.crossings_eq_moves, h.moves]

theorem booked (h : AtRest g byDepth r) :
    true = r.engine.isNew ∧ Booked g true { r with matching := true, depth := 0 } := by
  obtain ⟨choices, frames⟩ := h.fresh.frames
  have proper := (frames ▸ h.fresh.wellFormed.stacked).proper
  refine ⟨h.fresh.isNew.symm, [], ?_⟩
  simp only [liveFrames, if_true, frames, h.fresh.visited, Journal.crossings_eq_moves, h.moves]
  exact Ledger.start rfl proper rfl

theorem arriving (h : AtRest g byDepth r) (valid : g.validate = .ok ()) :
    Arriving g ((g.size + 1) * Ledger.total g) true { r with matching := true, depth := 0 } := by
  obtain ⟨choices, frames⟩ := h.fresh.frames
  have proper := (frames ▸ h.fresh.wellFormed.stacked).proper
  have current : r.engine.current = 0 := GraphEngine.current_of_frames frames
  have none : r.depths.find? = fun _ => none := by
    funext s
    rw [h.depths, DepthTable.find?_empty]
  have inside : 0 < g.size := StateGraph.Reachable.root.lt_size valid
  have expansions : r.journal.expansions = [] := by rw [Journal.expansions, h.moves]; rfl
  refine ⟨?_, ?_, ⟨⟨?_, ?_, ?_, ?_, ?_⟩, ?_⟩⟩
  all_goals simp only [liveFrames, if_true, frames, current, none, Journal.ExpandsUpward, expansions]
  · rfl
  · exact fun _ => trivial
  · have surveyed : Survey g 0 (improve (fun _ => Option.none) 0 0) [{ state := 0, choices }] :=
      .start rfl proper rfl
    exact surveyed.placed
  · -- The frame of the initial state is paid for by the depth that is recorded for it.
    have paid := work_improve (T := fun _ => Option.none) (s := 0) (d := 0) [] rfl inside (Nat.zero_le _)
    have remaining : (Frame.remaining g { state := 0, choices }).length = (g.outgoing 0).length :=
      (proper.remaining_perm rfl).length_eq
    rw [work_unrecorded] at paid
    simp only [work, List.map_cons, List.sum_cons, List.map_nil, List.sum_nil] at paid ⊢
    simp only [Journal.crossings_eq_moves, h.moves, List.reverse_nil, List.filterMap_nil, List.length_nil]
    omega
  · intro s some
    rw [isSome_improve] at some
    obtain rfl : s = 0 := by simpa using some
    exact ⟨inside, by simp [h.fresh.visited]⟩
  · simp
  · exact .nil
  · intro _ s entered
    have entered : entered? r.journal.moves = some s := entered
    rw [h.moves] at entered
    obtain rfl := Option.some.inj entered
    refine ⟨current.symm, fun x member => ?_⟩
    have member : x ∈ r.journal.expansions := member
    rw [expansions] at member
    cases member

end AtRest

/-- A budget that no depth-first search over the graph spends. -/
def patience (g : StateGraph) : Nat :=
  2 * ((g.size + 1) * Ledger.total g) + 3

end DepthFirst

/-- What a depth-first search over the graph is sparing with, depending on how it matches states. -/
structure Journal.Thrifty (g : StateGraph) (byDepth : Bool) (j : Journal) : Prop where
  crossesOnce : byDepth = false → j.CrossesOnce g
  expandsUpward : byDepth = true → j.ExpandsUpward

section Listeners

open DepthFirst Search

variable {P L : Type} {g : StateGraph} [Checkable GraphEngine P] [Listener GraphEngine P L]
  {allowed : L → Prop} (restrained : Listener.Restrained (E := GraphEngine) (P := P) (fun _ => True) allowed)
  (candid : Listener.Candid (E := GraphEngine) (P := P) (fun _ => True) allowed)

include restrained candid

theorem DepthFirst.ensures_thrifty (valid : g.validate = .ok ()) {byDepth : Bool} {budget : Nat}
    (enough : patience g ≤ budget) :
    Proceeds (fun r => r.journal.Thrifty g byDepth) (· ≠ .outOfFuel) allowed (AtRest g byDepth)
      (DepthFirst.run (E := GraphEngine) (P := P) (L := L) budget)
      fun _ r => r.journal.Thrifty g byDepth := by
  unfold patience at enough
  cases byDepth with
  | false =>
    have fewer : Ledger.total g ≤ (g.size + 1) * Ledger.total g := Nat.le_mul_of_pos_left _ (Nat.succ_pos _)
    have ran : Proceeds (fun r => r.journal.CrossesOnce g) (· ≠ .outOfFuel) allowed (AtRest g false)
        (DepthFirst.run (E := GraphEngine) (P := P) (L := L) budget) fun _ r => r.journal.CrossesOnce g :=
      (regime_plain valid).ensures_run restrained candid (fun r e silent h => h.record silent)
        (fun r h => h.poised h.booked) (by omega)
    apply (ran.imp _).imp_fail
    · exact fun f s hs => hs.imp fun r h => ⟨⟨fun _ => h.1, by simp⟩, h.2⟩
    · exact fun _ s hs => hs.imp fun r h => ⟨fun _ => h, by simp⟩
  | true =>
    have ran : Proceeds (fun r => r.journal.ExpandsUpward) (· ≠ .outOfFuel) allowed (AtRest g true)
        (DepthFirst.run (E := GraphEngine) (P := P) (L := L) budget) fun _ r => r.journal.ExpandsUpward :=
      (regime_byDepth valid).ensures_run restrained candid (fun r e silent h => h.record silent)
        (fun r h => h.poised (h.arriving valid)) (by omega)
    apply (ran.imp _).imp_fail
    · exact fun f s hs => hs.imp fun r h => ⟨⟨by simp, fun _ => h.1⟩, h.2⟩
    · exact fun _ s hs => hs.imp fun r h => ⟨by simp, fun _ => h⟩

/-- Over a valid graph with its edges in any order, with any properties, configuration and memory, and
    whatever restrained listeners do, a depth-first search comes to its end: some budget is enough, and
    what the run does does not depend on it.  Unless states are matched by depth, each transition of a
    reachable state is taken at most once; if they are, a state is expanded at smaller and smaller
    depths. -/
theorem depth_first_search_terminates (valid : g.validate = .ok ()) {s : Search GraphEngine P L}
    (listeners : ∀ l ∈ s.listeners, allowed l) (reporter : ∀ l ∈ s.reporter, allowed l)
    (fresh : s.run.engine.Fresh g) (unmoved : s.run.journal.moves = []) (unasked : s.run.lastQuery = none)
    (unrecorded : s.run.depths = {}) {budget : Nat} (enough : patience g ≤ budget) :
    DepthFirst.run budget s = DepthFirst.run (patience g) s ∧
      Ensures (· = s) (DepthFirst.run budget)
        (fun _ t => t.run.journal.Thrifty g s.run.config.matchByMinDepth)
        fun f t => f ≠ .outOfFuel ∧ t.run.journal.Thrifty g s.run.config.matchByMinDepth := by
  have start : s.Heeded allowed (AtRest g s.run.config.matchByMinDepth) :=
    ⟨listeners, reporter, rfl, fresh, unmoved, unasked, unrecorded⟩
  have ends {budget : Nat} (enough : patience g ≤ budget) := Ensures.of_eq
    (DepthFirst.ensures_thrifty (P := P) (L := L) restrained candid valid enough) start
  constructor
  · obtain ⟨t, spent⟩ | same := DepthFirst.outlasts_run enough s
    · have unspent := ends (Nat.le_refl _) s rfl
      rw [spent] at unspent
      exact absurd rfl unspent.run.2
    · exact same
  · apply ((ends enough).imp _).imp_fail
    · exact fun f t ht => ⟨ht.run.2, ht.run.1⟩
    · exact fun _ t ht => ht.run

end Listeners

theorem meddled_search_terminates : ∃ e, GraphEngine.ofGraph .tangle = .ok e ∧ ∀ byDepth, ∃ s,
    Search.ofEngine (e.withRandomChoices 3) { continueOnViolation := true, matchByMinDepth := byDepth } = .ok s ∧
    ∀ budget, DepthFirst.patience .tangle ≤ budget →
      let t : Search GraphEngine Subject (RuleListener Subject) :=
        (s.addProperty (.forbidden { states := [1] })).addListener meddler
      DepthFirst.run budget t = DepthFirst.run (DepthFirst.patience .tangle) t ∧
        Ensures (· = t) (DepthFirst.run budget) (fun _ u => u.run.journal.Thrifty .tangle byDepth)
          fun f u => f ≠ .outOfFuel ∧ u.run.journal.Thrifty .tangle byDepth := by
  obtain ⟨e, made⟩ : ∃ e, GraphEngine.ofGraph .tangle = .ok e := ⟨_, rfl⟩
  have fresh := (GraphEngine.fresh_ofGraph made).withRandomChoices 3
  refine ⟨e, made, fun byDepth => ⟨.fresh (e.withRandomChoices 3) _, rfl, ?_⟩⟩
  intro budget enough t
  have listeners : t.listeners = [meddler] := rfl
  have ready : t.run.engine.Fresh .tangle := fresh
  exact depth_first_search_terminates (RuleListener.restrained_of_isModest _) (RuleListener.candid _) rfl
    (by simpa [listeners] using meddler_isModest) (by intro l member; cases member) ready rfl rfl rfl enough

end Statewalk
