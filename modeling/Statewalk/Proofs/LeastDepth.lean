import Statewalk.Property.Forbidden
import Statewalk.Proofs.DepthSurvey
import Statewalk.Proofs.GraphRuns

/-! # Depth-first runs that match by least depth

A quiet depth-first search of a state graph that counts a known state as new again when it meets it at
a smaller depth.  Between two iterations the current state is not judged yet; what is said of such a
run is said of the depths that will be recorded when it is.
-/

namespace Statewalk

open GraphEngine (Enters)

namespace LeastDepth

variable {P : Type} {g : StateGraph} {c : Config} {A : Audience GraphEngine P} {limit : Bool}
  {r : Run GraphEngine P} {top below : Frame} {rest : List Frame} {edge : Edge} {depths : DepthTable}

/-! ## Judging the current state -/

/-- The depths that are recorded once the current state has been judged. -/
def recorded (r : Run GraphEngine P) : StateId → Option Nat :=
  improve r.depths.find? r.engine.current r.depth

/-- The current state counts as new. -/
def isBetter (r : Run GraphEngine P) : Bool :=
  improves r.depths.find? r.engine.current r.depth

/-- A table has room for the states of a graph that fits into memory. -/
theorem lt_capacity {s : StateId} (small : g.size < 2 ^ 60) (inside : s < g.size) :
    s < DepthTable.capacity :=
  Nat.lt_of_lt_of_le inside (Nat.le_sub_one_of_lt small)

/-- A run whose engine knows exactly the states that have a depth judges by depth. -/
theorem exists_judge (ranked : r.config.matchByMinDepth = true)
    (isNew : r.engine.isNew = (r.depths.find? r.engine.current).isNone)
    (id : r.engine.current < DepthTable.capacity) (deep : r.depth + 1 < wordLimit) :
    ∃ depths, r.judge = .ok (isBetter r, depths) ∧ depths.find? = recorded r := by
  obtain ⟨lowered, set⟩ := r.depths.exists_set id deep
  have record : r.recordDepth = .ok lowered := by
    show (r.depths.set r.engine.current r.depth).mapError Failure.fault = _
    rw [set]
    rfl
  have fresh (new : r.engine.isNew = true) : r.judge = .ok (true, lowered) := by
    have judge : r.judge = (r.recordDepth).map fun depths => (true, depths) := by
      simp only [Run.judge, ranked, if_true, show Engine.isNew r.engine = true from new]
    rw [judge, record]
    rfl
  have known {d : Nat} (old : r.engine.isNew = false) (get : r.depths.get r.engine.current = .ok d) :
      r.judge = if r.depth < d then .ok (true, lowered) else .ok (false, r.depths) := by
    have get' : r.depths.get (Engine.stateId r.engine) = .ok d := get
    simp only [Run.judge, ranked, if_true, record, show Engine.isNew r.engine = false from old, get']
    rfl
  have lowers (better : isBetter r = true) : lowered.find? = recorded r := by
    funext q
    rw [DepthTable.find?_set set, recorded, improve_of_improves better]
  -- A state without a depth is new to the engine as well; one with a depth is compared.
  cases met : r.depths.find? r.engine.current with
  | none =>
    have better : isBetter r = true := by simp [isBetter, improves, met]
    exact ⟨lowered, by rw [fresh (by simp [isNew, met]), better], lowers better⟩
  | some k =>
    have get : r.depths.get r.engine.current = .ok k := by simp [DepthTable.get, met]
    rw [known (by simp [isNew, met]) get]
    by_cases less : r.depth < k
    · have better : isBetter r = true := by simp [isBetter, improves, met, less]
      exact ⟨lowered, by simp [less, better], lowers better⟩
    · have worse : isBetter r = false := by simp [isBetter, improves, met, less]
      exact ⟨r.depths, by simp [less, worse], (improve_of_not_improves worse).symm⟩

/-! ## Invariants -/

/-- The search is about to leave the current state. -/
def isLeft (limit : Bool) (r : Run GraphEngine P) : Bool :=
  DepthFirst.leaves limit (isBetter r) r.engine

/-- The frames that are open between two iterations. -/
def openFrames (limit : Bool) (r : Run GraphEngine P) : List Frame :=
  if isLeft limit r then r.engine.frames.tail else r.engine.frames

/-- What holds between two iterations. -/
structure Head (g : StateGraph) (c : Config) (limit : Bool) (r : Run GraphEngine P) : Prop
    extends Run.Underway g c [] (fun _ => false) r where
  isNew : r.engine.isNew = (r.depths.find? r.engine.current).isNone
  survey : Survey g c.depthLimit (recorded r) (openFrames limit r)
  room : (openFrames limit r).length ≤ c.depthLimit
  root : recorded r 0 = some 0
  seen : ∀ s, s ∈ r.engine.visited ↔ (recorded r s).isSome = true
  entered : ∀ s, s ∈ r.engine.visited ↔ s = 0 ∨ ∃ x ∈ r.journal.crossings, x.target = s

/-- What holds before the search tries to go on. -/
structure Ready (g : StateGraph) (c : Config) (r : Run GraphEngine P) : Prop
    extends Run.Underway g c [] (fun _ => false) r where
  survey : Survey g c.depthLimit r.depths.find? r.engine.frames
  room : r.engine.frames.length ≤ c.depthLimit
  root : r.depths.find? 0 = some 0
  seen : ∀ s, s ∈ r.engine.visited ↔ (r.depths.find? s).isSome = true
  entered : ∀ s, s ∈ r.engine.visited ↔ s = 0 ∨ ∃ x ∈ r.journal.crossings, x.target = s

theorem isLeft_eq (limit : Bool) (ignored : r.engine.ignored = []) (graph : r.engine.graph = g) :
    isLeft limit r = (!isBetter r || g.isEnd r.engine.current || limit) := by
  rw [isLeft, DepthFirst.leaves, GraphEngine.isIgnored_of_nil ignored, Bool.or_false, ← graph]
  rfl

theorem Head.current_lt (h : Head g c limit r) (valid : g.validate = .ok ()) :
    r.engine.current < g.size := by
  obtain ⟨top, rest, frames⟩ := h.exists_frames
  exact (h.wellFormed.route frames).reachable.lt_size valid

/-- The search goes at most one deeper than there are states. -/
theorem Head.depth_le (h : Head g c limit r) (valid : g.validate = .ok ()) : r.depth ≤ g.size := by
  have opened := h.survey.opened_le valid
  have depth := h.depth
  have tail : r.engine.frames.tail.length ≤ (openFrames limit r).length := by
    unfold openFrames
    split
    · exact Nat.le_refl _
    · simp
  rw [List.length_tail] at tail
  omega

theorem Head.of_start (h : r.AtStart g c [] (fun _ => false)) (empty : r.depths = {})
    (positive : 1 ≤ c.depthLimit) : Head g c false r := by
  obtain ⟨choices, frames⟩ := h.fresh.frames
  have current : r.engine.current = 0 := GraphEngine.current_of_frames frames
  have unmet : r.depths.find? = fun _ => none := by
    funext q
    rw [empty, DepthTable.find?_empty]
  have recorded_eq : recorded r = improve (fun _ => none) 0 0 := by
    rw [recorded, unmet, current, h.depth_eq]
  have better : isBetter r = true := by
    rw [isBetter, unmet]
    rfl
  have stacked := h.wellFormed.stacked
  rw [frames] at stacked
  have survey : Survey g c.depthLimit (recorded r) r.engine.frames := by
    rw [recorded_eq, frames]
    exact .start rfl stacked.proper rfl
  refine { h.toUnderway with isNew := ?_, survey := ?_, room := ?_, root := ?_, seen := ?_, entered := ?_ }
  · rw [h.fresh.isNew, unmet]
    rfl
  · unfold openFrames
    split
    · -- An initial state that ends here has no transitions to take.
      rename_i left
      have isEnd : g.isEnd 0 = true := by
        simpa [isLeft_eq false h.ignored h.wellFormed.graph, better, current] using left
      rw [frames] at survey ⊢
      exact survey.drop (.inl (by simp [StateGraph.outgoing, isEnd]))
    · exact survey
  · unfold openFrames
    split
    · simp [frames]
    · simpa [frames] using positive
  · rw [recorded_eq]
    rfl
  · intro s
    rw [recorded_eq, isSome_improve, h.fresh.visited]
    simp
  · intro s
    rw [h.crossings, h.fresh.visited]
    simp

/-- A state that is not left has an open frame. -/
theorem Head.stay (h : Head g c limit r) (stays : isLeft limit r = false)
    (judged : depths.find? = recorded r) : Ready g c { r with depths } := by
  have opened : openFrames limit r = r.engine.frames := if_neg (by simp [stays])
  refine { h.toUnderway with survey := ?_, room := ?_, root := ?_, seen := ?_, entered := h.entered }
  · show Survey g c.depthLimit depths.find? r.engine.frames
    rw [judged, ← opened]
    exact h.survey
  · exact opened ▸ h.room
  · show depths.find? 0 = some 0
    rw [judged]
    exact h.root
  · intro s
    show _ ↔ (depths.find? s).isSome = true
    rw [judged]
    exact h.seen s

/-- The frame of a state that is left is not open. -/
theorem Head.leave (h : Head g c limit r) (left : isLeft limit r = true)
    (frames : r.engine.frames = top :: rest) (judged : depths.find? = recorded r) :
    Survey g c.depthLimit depths.find? rest ∧ rest.length ≤ c.depthLimit := by
  have opened : openFrames limit r = rest := by
    rw [openFrames, if_pos left, frames]
    rfl
  have survey := h.survey
  have room := h.room
  rw [opened] at survey room
  rw [judged]
  exact ⟨survey, room⟩

section Steps

variable {L : Type} [Listener GraphEngine P L] {ls : List L} (hears : A.Hears c ls)

include hears

theorem Head.retreated (h : Head g c limit r) (left : isLeft limit r = true)
    (frames : r.engine.frames = top :: below :: rest) (judged : depths.find? = recorded r) :
    Ready g c (({ r with depths } : Run GraphEngine P).retreated A) := by
  obtain ⟨survey, room⟩ := h.leave left frames judged
  have underway : Run.Underway g c [] (fun _ => false) ({ r with depths } : Run GraphEngine P) :=
    { h.toUnderway with }
  have engine := Run.engine_retreated (r := { r with depths }) (A := A) frames
  refine { underway.kept (underway.toAfoot.retreated hears frames) (.retreated frames) with
    survey := ?_, room := ?_, root := ?_, seen := ?_, entered := ?_ }
  · rw [engine]
    exact survey
  · rw [engine]
    exact room
  · show depths.find? 0 = some 0
    rw [judged]
    exact h.root
  · intro s
    rw [engine]
    show _ ↔ (depths.find? s).isSome = true
    rw [judged]
    exact h.seen s
  · intro s
    rw [engine, Run.crossings_retreated]
    exact h.entered s

omit hears in
theorem Ready.depth_eq (h : Ready g c r) (frames : r.engine.frames = top :: rest) :
    r.depth = rest.length := by
  have depth := h.depth
  rw [frames] at depth
  exact Nat.succ_injective depth

section Onward

variable (h : Ready g c r) (enters : Enters g r.engine top rest edge)

omit hears
include h enters

theorem recorded_onward :
    recorded (r.onward A) = improve r.depths.find? edge.target (rest.length + 1) := by
  rw [recorded, Run.engine_onward enters, GraphEngine.current_enter, ← h.depth_eq enters.frames]
  rfl

theorem isLeft_onward (limit : Bool) : isLeft limit (r.onward A) =
    (!improves r.depths.find? edge.target (rest.length + 1) || g.isEnd edge.target || limit) := by
  have better : isBetter (r.onward A) = improves r.depths.find? edge.target (rest.length + 1) := by
    rw [isBetter, Run.engine_onward enters, GraphEngine.current_enter, ← h.depth_eq enters.frames]
    rfl
  have ignored : (r.onward A).engine.ignored = [] := (Run.ignored_onward enters).trans h.ignored
  have graph : (r.onward A).engine.graph = g := (Run.graph_onward enters).trans h.wellFormed.graph
  rw [isLeft_eq limit ignored graph, better, Run.engine_onward enters, GraphEngine.current_enter]

omit h in
theorem openFrames_onward (limit : Bool) : openFrames limit (r.onward A) =
    if isLeft limit (r.onward A) then top.next :: rest
    else GraphEngine.entered edge { r.engine with frames := top.next :: rest } :: top.next :: rest := by
  rw [openFrames, Run.frames_onward enters]
  rfl

omit enters in
theorem proper_entered (edge : Edge) (rest : List Frame) :
    (GraphEngine.entered edge { r.engine with frames := rest }).Proper g := by
  rw [← h.wellFormed.graph]
  exact GraphEngine.proper_entered edge _

end Onward

theorem Ready.onward (h : Ready g c r) (enters : Enters g r.engine top rest edge) :
    Head g c (decide (c.depthLimit ≤ rest.length + 1)) (r.onward A) := by
  have survey := h.survey
  have room := h.room
  rw [enters.frames] at survey room
  have engine := Run.engine_onward enters (A := A)
  have left := isLeft_onward h enters (decide (c.depthLimit ≤ rest.length + 1)) (A := A)
  refine { h.toUnderway.kept (h.toAfoot.onward hears enters) (.onward enters rfl) with
    isNew := ?_, survey := ?_, room := ?_, root := ?_, seen := ?_, entered := ?_ }
  · -- The engine and the table know the same states.
    rw [engine, GraphEngine.isNew_enter, GraphEngine.current_enter]
    show decide (edge.target ∉ r.engine.visited) = (r.depths.find? edge.target).isNone
    have seen : decide (edge.target ∈ r.engine.visited) = (r.depths.find? edge.target).isSome := by
      simp [h.seen]
    rw [decide_not, seen, Option.not_isSome]
  · rw [recorded_onward h enters, openFrames_onward enters]
    exact survey.cross enters.remaining enters.outgoing room rfl (proper_entered h edge _) rfl left
  · rw [openFrames_onward enters]
    split
    · exact room
    · rename_i stays
      rw [left] at stays
      simp only [Bool.or_eq_true, decide_eq_true_eq, not_or, Nat.not_le] at stays
      exact stays.2
  · rw [recorded_onward h enters]
    obtain ⟨k, le, found⟩ := exists_improve_of_some h.root
    rw [found, Nat.le_zero.1 le]
  · intro s
    rw [recorded_onward h enters, isSome_improve, ← h.seen s, engine]
    exact GraphEngine.mem_visited_enter edge _
  · intro s
    rw [engine, Run.crossings_onward enters]
    refine (GraphEngine.mem_visited_enter edge _).trans ?_
    rw [show s ∈ ({ r.engine with frames := top.next :: rest } : GraphEngine).visited ↔ _ from
      h.entered s]
    simp only [List.mem_append, List.mem_singleton, or_and_right, exists_or, exists_eq_left]
    -- The new crossing comes last, its target first among the visited states.
    rw [or_left_comm, or_comm (a := s = edge.target)]
    simp only [Crossing.target, Edge.state_transition, eq_comm]

omit hears in
/-- A state whose transitions have all been taken is left. -/
theorem Ready.left_halted (h : Ready g c r) (frames : r.engine.frames = top :: rest)
    (stuck : Engine.forward r.engine = (false, r.engine.stall)) :
    recorded (r.halted A) = r.depths.find? ∧ isLeft false (r.halted A) = true ∧
      openFrames false (r.halted A) = rest := by
  have survey := h.survey
  rw [frames] at survey
  have engine := Run.engine_halted stuck (A := A)
  -- The state was recorded at this very depth when it was entered.
  have worse : isBetter (r.halted A) = false := by
    rw [isBetter, engine, show r.engine.stall.current = top.state from
      GraphEngine.current_of_frames frames]
    show improves r.depths.find? top.state r.depth = false
    simp [improves, survey.placed.top, h.depth_eq frames]
  have left : isLeft false (r.halted A) = true := by
    rw [isLeft, worse]
    rfl
  refine ⟨improve_of_not_improves worse, left, ?_⟩
  rw [openFrames, if_pos left, engine]
  show r.engine.frames.tail = rest
  rw [frames]
  rfl

theorem Ready.halted (h : Ready g c r) (frames : r.engine.frames = top :: rest)
    (spent : top.tried = top.choices.length)
    (stuck : Engine.forward r.engine = (false, r.engine.stall)) : Head g c false (r.halted A) := by
  have survey := h.survey
  have room := h.room
  rw [frames] at survey room
  have engine := Run.engine_halted stuck (A := A)
  obtain ⟨recorded_eq, -, opened⟩ := h.left_halted frames stuck (A := A)
  refine { h.toUnderway.kept (h.toAfoot.halted hears stuck) (.halted stuck) with
    isNew := ?_, survey := ?_, room := ?_, root := ?_, seen := ?_, entered := ?_ }
  · rw [engine, show r.engine.stall.current = top.state from GraphEngine.current_of_frames frames]
    show false = (r.depths.find? top.state).isNone
    rw [survey.placed.top]
    rfl
  · rw [recorded_eq, opened]
    exact survey.close (Frame.remaining_eq_nil spent)
  · rw [opened]
    exact Nat.le_of_succ_le room
  · rw [recorded_eq]
    exact h.root
  · rw [recorded_eq, engine]
    exact h.seen
  · rw [Run.crossings_halted stuck, engine]
    exact h.entered

theorem Head.constrained (h : Head g c limit r) (details : String) :
    Head g c limit (r.constrained A details) := by
  have underway : Run.Underway g c [] (fun _ => false)
      ({ r with lastConstraint := some details } : Run GraphEngine P) :=
    { h.toUnderway with }
  refine { underway.kept (underway.toAfoot.said hears .searchConstraintHit) (.said _ nofun) with
    isNew := h.isNew, survey := h.survey, room := h.room, root := h.root, seen := h.seen, entered := ?_ }
  rw [Run.constrained, Run.crossings_said]
  exact h.entered

end Steps

/-! ## Progress -/

/-- Bounds the number of iterations to come.  Each iteration takes a transition, or steps back, or
    finds that a state has no transitions left. -/
def potential (g : StateGraph) (limit : Bool) (r : Run GraphEngine P) : Nat :=
  2 * work g (recorded r) (openFrames limit r) + r.engine.frames.length + (!isLeft limit r).toNat

/-- What holds when the search came to its end. -/
structure Finished (g : StateGraph) (c : Config) (reason : StopReason) (r : Run GraphEngine P) :
    Prop where
  exhausted : reason = .exhausted
  depth : r.depth = 0
  survey : Survey g c.depthLimit r.depths.find? []
  root : r.depths.find? 0 = some 0
  seen : ∀ s, s ∈ r.engine.visited ↔ (r.depths.find? s).isSome = true
  entered : ∀ s, s ∈ r.engine.visited ↔ s = 0 ∨ ∃ x ∈ r.journal.crossings, x.target = s
  recalls : r.Recalls

theorem Head.finished (h : Head g c limit r) (left : isLeft limit r = true)
    (frames : r.engine.frames = [top]) (judged : depths.find? = recorded r) :
    Finished g c .exhausted ({ r with depths } : Run GraphEngine P).forgetQuery.stepBack.2 := by
  have engine : (Engine.backtrack r.engine).2 = r.engine :=
    congrArg Prod.snd (GraphEngine.backtrack_root frames)
  have depth := h.depth
  rw [frames] at depth
  refine ⟨rfl, Nat.succ_injective depth, (h.leave left frames judged).1, ?_, ?_, ?_,
    Run.recalls_of_none rfl⟩
  · show depths.find? 0 = some 0
    rw [judged]
    exact h.root
  · intro s
    show s ∈ (Engine.backtrack r.engine).2.visited ↔ (depths.find? s).isSome = true
    rw [engine, judged]
    exact h.seen s
  · intro s
    rw [Run.crossings_stepBack]
    show s ∈ (Engine.backtrack r.engine).2.visited ↔ _
    rw [engine]
    exact h.entered s

section Progress

theorem Ready.potential_onward (valid : g.validate = .ok ()) (h : Ready g c r)
    (enters : Enters g r.engine top rest edge) :
    potential g (decide (c.depthLimit ≤ rest.length + 1)) (r.onward A) <
      2 * work g r.depths.find? r.engine.frames + r.engine.frames.length + 1 := by
  have inside := enters.target_lt valid
  have deep := h.survey.opened_le valid
  rw [enters.frames] at deep
  have known : improves r.depths.find? edge.target (rest.length + 1) = false →
      isLeft (decide (c.depthLimit ≤ rest.length + 1)) (r.onward A) = true := by
    intro worse
    rw [isLeft_onward h enters, worse]
    rfl
  have taken : work g (recorded (r.onward A))
      (openFrames (decide (c.depthLimit ≤ rest.length + 1)) (r.onward A)) <
        work g r.depths.find? r.engine.frames := by
    have crossed := work_cross (T := r.depths.find?) enters.remaining inside deep rfl
      (proper_entered h edge (top.next :: rest)) rfl known
    rw [recorded_onward h enters, openFrames_onward enters, enters.frames]
    exact crossed
  have frames : (r.onward A).engine.frames.length = r.engine.frames.length + 1 := by
    rw [Run.frames_onward enters, enters.frames]
    rfl
  have stays := Bool.toNat_le (!isLeft (decide (c.depthLimit ≤ rest.length + 1)) (r.onward A))
  rw [potential, frames]
  omega

theorem Ready.potential_halted (h : Ready g c r) (frames : r.engine.frames = top :: rest)
    (stuck : Engine.forward r.engine = (false, r.engine.stall)) :
    potential g false (r.halted A) <
      2 * work g r.depths.find? r.engine.frames + r.engine.frames.length + 1 := by
  obtain ⟨recorded_eq, left, opened⟩ := h.left_halted frames stuck (A := A)
  have closed := work_close g r.depths.find? top rest
  have same : (r.halted A).engine.frames.length = r.engine.frames.length := by
    rw [Run.engine_halted stuck]
    rfl
  rw [potential, recorded_eq, left, opened, same, frames]
  simp only [Bool.not_true, Bool.toNat_false]
  omega

variable [Checkable GraphEngine P] {L : Type} [Listener GraphEngine P L] {ls : List L}
  (hears : A.Hears c ls) (valid : g.validate = .ok ()) (small : g.size < 2 ^ 60)

include hears valid small

theorem Ready.attains_advance (h : Ready g c r) (k : Option Query) :
    Attains (Mirrors c ls) (DepthFirst.advance false) { r with lastQuery := k }
      (Turn.Leads (Head g c) (potential g)
        (2 * work g r.depths.find? r.engine.frames + r.engine.frames.length + 1) (Finished g c)) := by
  obtain ⟨top, rest, frames⟩ := h.exists_frames
  have depth := h.depth_eq frames
  have opened := h.survey.opened_le valid
  rw [frames, List.length_cons] at opened
  have word : r.depth + 1 < wordLimit := succ_lt_wordLimit (by omega)
  rcases h.wellFormed.forward_cases frames with ⟨edge, enters⟩ | ⟨spent, stuck⟩
  · have onward := h.onward hears enters
    have lower := Ready.potential_onward valid h enters (A := A)
    -- At the limit the state is recorded but left at once.
    by_cases reached : c.depthLimit ≤ rest.length + 1
    · rw [decide_eq_true reached] at onward lower
      refine (DepthFirst.yields_advance_limit (r := { r with lastQuery := k }) hears Search.guards_nil
        h.config h.properties enters.moved rfl word (depth ▸ reached)).imp ?_
      rintro _ _ ⟨rfl, rfl⟩
      exact ⟨onward.constrained hears _, lower⟩
    · rw [decide_eq_false reached] at onward lower
      refine (DepthFirst.yields_advance_onward (r := { r with lastQuery := k }) hears Search.guards_nil
        h.config h.properties enters.moved rfl word (depth ▸ Nat.not_le.1 reached)).imp ?_
      rintro _ _ ⟨rfl, rfl⟩
      exact ⟨onward, lower⟩
  · have halted := h.halted hears frames spent stuck
    refine (DepthFirst.yields_advance_halted (r := { r with lastQuery := k }) hears Search.guards_nil
      h.properties (congrArg Prod.fst stuck) rfl).imp ?_
    rintro _ _ ⟨rfl, rfl⟩
    exact ⟨halted, h.potential_halted frames stuck⟩

theorem Head.attains_iterate (ranked : c.matchByMinDepth = true) (h : Head g c limit r) :
    Attains (Mirrors c ls) (DepthFirst.iterate limit) r
      (Turn.Leads (Head g c) (potential g) (potential g limit r) (Finished g c)) := by
  have bound := h.depth_le valid
  obtain ⟨depths, judge, judged⟩ := exists_judge (h.config ▸ ranked) h.isNew
    (lt_capacity small (h.current_lt valid)) (succ_lt_wordLimit (by omega))
  have same : ({ r with depths, backtrackRequested := false } : Run GraphEngine P) = { r with depths } := by
    rw [← h.unrequested]
  have leaving (left : (r.backtrackRequested || isLeft limit r) = true) : isLeft limit r = true := by
    simpa [h.unrequested] using left
  refine Run.attains_iterate_graph hears h.wellFormed h.depth h.unprobed h.matching h.recalls judge same
    ?_ ?_ ?_
  · intro _ left
    have unlimited : limit = false := by
      have stays : isLeft limit r = false := left
      rw [isLeft_eq limit h.ignored h.wellFormed.graph, Bool.or_eq_false_iff] at stays
      exact stays.2
    have bound : potential g limit r =
        2 * work g depths.find? r.engine.frames + r.engine.frames.length + 1 := by
      rw [potential, openFrames, show isLeft limit r = false from left, judged]
      rfl
    rw [bound, unlimited]
    exact (h.stay left judged).attains_advance hears valid small _
  · intro top below rest frames left
    -- The state that the search returns to was judged when it was entered.
    let back : Run GraphEngine P := ({ r with depths } : Run GraphEngine P).retreated A
    have bound : potential g limit r =
        2 * work g back.depths.find? back.engine.frames + back.engine.frames.length + 1 := by
      rw [show back.engine = _ from Run.engine_retreated frames, potential, openFrames, leaving left, frames,
        ← judged]
      rfl
    rw [bound]
    exact (h.retreated hears (leaving left) frames judged).attains_advance hears valid small back.lastQuery
  · intro top frames left
    exact h.finished (leaving left) frames judged

end Progress

/-! ## Searches -/

/-- A quiet run that matches by least depth comes to its end with a survey of the graph. -/
theorem attains_run [Checkable GraphEngine P] {L : Type} [Listener GraphEngine P L] {ls : List L}
    (hears : A.Hears c ls) (valid : g.validate = .ok ()) (small : g.size < 2 ^ 60)
    (ranked : c.matchByMinDepth = true) (positive : 1 ≤ c.depthLimit)
    (h : r.AtStart g c [] (fun _ => false)) (empty : r.depths = {}) : ∃ budget,
    Attains (Mirrors c ls) (DepthFirst.run budget) r fun o q => ∃ reason q',
      Finished g c reason q' ∧ o = q'.outcome reason ∧ q = q'.concluded A := by
  refine DepthFirst.attains_run (Head g c) (potential g) hears h.matching h.recalls h.depth_eq
    (.of_start (h.said hears .searchStarted) empty positive) ?_ ?_ fun _ _ finished => finished.recalls
  · exact fun _ _ head => head.notDone
  · exact fun _ _ head => head.attains_iterate hears valid small ranked

namespace Finished

variable {reason : StopReason} {q : StateId} {d : Nat} (h : Finished g c reason r)

include h

theorem get_eq_ok_iff : r.depths.get q = .ok d ↔ g.Distance q d ∧ d ≤ c.depthLimit := by
  rw [← h.survey.recorded_iff h.root, DepthTable.get]
  cases r.depths.find? q <;> simp

theorem get_of_far (far : ∀ d, g.Distance q d → c.depthLimit < d) :
    r.depths.get q = .error (.unvisited q) := by
  rw [DepthTable.get]
  cases found : r.depths.find? q with
  | none => rfl
  | some d =>
    obtain ⟨distance, within⟩ := (h.survey.recorded_iff h.root).1 found
    exact absurd within (Nat.not_le.2 (far d distance))

theorem entered_iff : (q = 0 ∨ ∃ x ∈ r.journal.crossings, x.target = q) ↔
    ∃ d, g.Distance q d ∧ d ≤ c.depthLimit := by
  rw [← h.entered q, h.seen q, Option.isSome_iff_exists]
  simp only [h.survey.recorded_iff h.root]

end Finished

end LeastDepth

theorem Search.ofEngine_eq_ok {E P L : Type} {e : E} {c : Config} {s : Search E P L}
    (h : ofEngine e c = .ok s) : 1 ≤ c.depthLimit ∧ s = fresh e c := by
  unfold ofEngine at h
  split at h
  · cases h
  · rename_i accepted
    refine ⟨?_, (Except.ok.inj h).symm⟩
    by_contra zero
    have zero : c.depthLimit = 0 := by omega
    simp [Config.validate, Config.zeroLimit?, zero] at accepted

/-- A fresh depth-first search that matches by least depth, over a valid graph and with its edges in any
    order, enters exactly the states within its depth limit and records how far away they are.  A state
    takes more than a word of memory, so that no list of states is as long as `2 ^ 60`. -/
theorem least_depth_search_surveys {P L : Type} [Checkable GraphEngine P] [Listener GraphEngine P L]
    {g : StateGraph} {e : GraphEngine} {c : Config} {s : Search GraphEngine P L}
    (valid : g.validate = .ok ()) (small : g.size < 2 ^ 60) (fresh : GraphEngine.Fresh g e)
    (ranked : c.matchByMinDepth = true) (unlimited : c.maxMemory = none)
    (made : Search.ofEngine e c = .ok s) :
    ∃ o t, Ends DepthFirst.run s o t ∧ o.reason = .exhausted ∧ o.depth = 0 ∧
      (∀ q, (q = 0 ∨ ∃ x ∈ t.run.journal.crossings, x.target = q) ↔
        ∃ d, g.Distance q d ∧ d ≤ c.depthLimit) ∧
      (∀ q d, g.Distance q d → d ≤ c.depthLimit → t.run.depths.get q = .ok d) ∧
      ∀ q, (∀ d, g.Distance q d → c.depthLimit < d) →
        t.run.depths.get q = .error (.unvisited q) := by
  obtain ⟨positive, rfl⟩ := Search.ofEngine_eq_ok made
  let s : Search GraphEngine P L := .fresh e c
  have start : s.run.AtStart g c [] (fun _ => false) := .of_fresh fresh rfl rfl rfl
  have mirrors : Mirrors c [] s s.run :=
    Mirrors.rfl_of_unlimited (s := s) (Memory.unlimited_configure unlimited) rfl rfl rfl
  obtain ⟨budget, attains⟩ := LeastDepth.attains_run (L := L) (Audience.nobody_hears c) valid small
    ranked positive start rfl
  obtain ⟨o, t, q, ends, mirrors', reason, q', finished, rfl, rfl⟩ :=
    attains.ends DepthFirst.steady_run mirrors
  have crossings : t.run.journal.crossings = q'.journal.crossings := by
    rw [mirrors'.crossings]
    exact Run.crossings_said _
  have depths : t.run.depths = q'.depths := by
    obtain ⟨m, j, eq, -⟩ := mirrors'.run_eq
    rw [eq]
    rfl
  refine ⟨_, t, ends, finished.exhausted, finished.depth, ?_, ?_, ?_⟩
  · intro q
    rw [crossings]
    exact finished.entered_iff
  · intro q d distance within
    rw [depths]
    exact finished.get_eq_ok_iff.2 ⟨distance, within⟩
  · intro q far
    rw [depths]
    exact finished.get_of_far far

theorem shortcut_surveyed : ∃ e, GraphEngine.ofGraph .shortcut = .ok e ∧
    (∃ s : Search GraphEngine ForbiddenStates Statistics,
      Search.ofEngine e { matchByMinDepth := true, depthLimit := 2 } = .ok s ∧
      ∃ o t, Ends DepthFirst.run s o t ∧ o.reason = .exhausted ∧ t.run.depths.get 3 = .ok 2) ∧
    ∃ s : Search GraphEngine ForbiddenStates Statistics,
      Search.ofEngine e { matchByMinDepth := true, depthLimit := 1 } = .ok s ∧
      ∃ o t, Ends DepthFirst.run s o t ∧ o.reason = .exhausted ∧
        t.run.depths.get 3 = .error (.unvisited 3) := by
  have valid : StateGraph.shortcut.validate = .ok () := by decide
  have small : StateGraph.shortcut.size < 2 ^ 60 := by decide
  obtain ⟨e, made⟩ : ∃ e, GraphEngine.ofGraph .shortcut = .ok e := ⟨_, rfl⟩
  have fresh := GraphEngine.fresh_ofGraph made
  refine ⟨e, made, ?_, ?_⟩
  · obtain ⟨s, fitted⟩ : ∃ s : Search GraphEngine ForbiddenStates Statistics,
        Search.ofEngine e { matchByMinDepth := true, depthLimit := 2 } = .ok s := ⟨_, rfl⟩
    obtain ⟨o, t, ends, exhausted, -, -, recorded, -⟩ :=
      least_depth_search_surveys valid small fresh rfl rfl fitted
    have within : t.run.depths.get 3 = .ok 2 :=
      recorded 3 2 StateGraph.distance_shortcut (Nat.le_refl 2)
    exact ⟨s, fitted, o, t, ends, exhausted, within⟩
  · obtain ⟨s, fitted⟩ : ∃ s : Search GraphEngine ForbiddenStates Statistics,
        Search.ofEngine e { matchByMinDepth := true, depthLimit := 1 } = .ok s := ⟨_, rfl⟩
    obtain ⟨o, t, ends, exhausted, -, -, -, unvisited⟩ :=
      least_depth_search_surveys valid small fresh rfl rfl fitted
    have beyond : ∀ d, StateGraph.shortcut.Distance 3 d → 1 < d := by
      intro d distance
      rw [distance.unique StateGraph.distance_shortcut]
      exact Nat.lt_succ_self 1
    exact ⟨s, fitted, o, t, ends, exhausted, unvisited 3 beyond⟩

end Statewalk
