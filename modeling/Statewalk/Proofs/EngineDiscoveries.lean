import Statewalk.Proofs.EngineHistories

/-! # Discoveries of a graph engine

A graph engine says of itself whether it is in a new state and whether its last move executed
something.  Both are judged here by the moves that it made in its life, and by nothing that it keeps.

* `GraphEngine.Motion` — a move and what came of it; a step back at the root is no move.
* `GraphEngine.Recalls` — what the engine says, and what it has visited, is what its moves tell.
-/

namespace Statewalk.GraphEngine

variable {g : StateGraph} {e : GraphEngine}

/-- A move of an engine, and what came of it. -/
inductive Motion where
  /-- A step forward into a state. -/
  | entered (state : StateId)
  /-- A step forward that led nowhere. -/
  | halted
  /-- A step back. -/
  | retreated
  /-- A return to a snapshot. -/
  | resumed
deriving DecidableEq, Repr

namespace Bench

/-- The move that an operation makes.  What the engine refuses to do, other than to step forward, is
    no move. -/
def motion? (b : Bench) : Command → Option Motion
  | .step .forward =>
    if b.engine.forward.1 then some (.entered b.engine.forward.2.current) else some .halted
  | .step .backtrack => if b.engine.backtrack.1 then some .retreated else none
  | .restore number =>
    match b.snapshots[number]? with
    | some s => if (b.engine.restore s).1 then some .resumed else none
    | none => none
  | .ignore _ | .snapshot | .resetChoice => none

/-- The moves that operations make, the latest first. -/
def motions (b : Bench) : List Command → List Motion
  | [] => []
  | c :: cs => (b.perform c).motions cs ++ (b.motion? c).toList

end Bench

/-- The engine tells what becomes of its moves, of which the latest is the first.  It is in a new state
    before all moves, and after a step into a state that it was not in at any time before. -/
structure Recalls (g : StateGraph) (moves : List Motion) (e : GraphEngine) : Prop where
  isNew : Engine.isNew e = true ↔
    moves = [] ∨ ∃ s earlier, moves = .entered s :: earlier ∧ s ≠ 0 ∧ .entered s ∉ earlier
  occurred : Engine.occurred e = true ↔ ∃ s earlier, moves = .entered s :: earlier
  visited : ∀ s, s ∈ e.visited ↔ s = 0 ∨ .entered s ∈ moves
  nodup : e.visited.Nodup
  reachable : ∀ s ∈ e.visited, g.Reachable s

namespace Recalls

variable {moves : List Motion}

theorem start (fresh : Fresh g e) (still : e.occurred = false) : Recalls g [] e where
  isNew := by simp [Engine.isNew, fresh.isNew]
  occurred := by simp [Engine.occurred, still]
  visited := by simp [fresh.visited]
  nodup := by simp [fresh.visited]
  reachable := by simpa [fresh.visited] using StateGraph.Reachable.root

/-- What is neither a move nor a change of the visited states makes no difference. -/
theorem congr {e' : GraphEngine} (h : Recalls g moves e) (isNew : e'.isNew = e.isNew)
    (occurred : e'.occurred = e.occurred) (visited : e'.visited = e.visited) : Recalls g moves e' where
  isNew := by rw [← h.isNew]; simp only [Engine.isNew, isNew]
  occurred := by rw [← h.occurred]; simp only [Engine.occurred, occurred]
  visited := visited ▸ h.visited
  nodup := visited ▸ h.nodup
  reachable := visited ▸ h.reachable

/-- A move that reaches no state leaves nothing new and adds nothing to what was visited. -/
theorem stalled {e' : GraphEngine} {m : Motion} (h : Recalls g moves e) (isNew : e'.isNew = false)
    (occurred : e'.occurred = false) (visited : e'.visited = e.visited) (nowhere : ∀ s, m ≠ .entered s) :
    Recalls g (m :: moves) e' where
  isNew := by
    simp only [Engine.isNew, isNew, Bool.false_eq_true, false_iff, not_or, not_exists]
    refine ⟨List.cons_ne_nil _ _, fun s earlier same => nowhere s ?_⟩
    exact (List.cons.inj same.1).1
  occurred := by
    simp only [Engine.occurred, occurred, Bool.false_eq_true, false_iff, not_exists]
    exact fun s earlier same => nowhere s (List.cons.inj same).1
  visited s := by
    rw [visited, h.visited, List.mem_cons]
    simp [Ne.symm (nowhere s)]
  nodup := visited ▸ h.nodup
  reachable := visited ▸ h.reachable

/-- A step into a state is new if the state was never entered and is not the initial one. -/
theorem enter {edge : Edge} {e' : GraphEngine} (h : Recalls g moves e) (same : e'.visited = e.visited)
    (reachable : g.Reachable edge.target) :
    Recalls g (.entered edge.target :: moves) (GraphEngine.enter edge e') where
  isNew := by
    show (GraphEngine.enter edge e').isNew = true ↔ _
    -- The engine asks what it has visited, which is the initial state and what the moves before this one entered.
    rw [isNew_enter, decide_eq_true_eq, same, h.visited, not_or]
    constructor
    · exact fun unknown => .inr ⟨_, _, rfl, unknown⟩
    · rintro (none | ⟨s, earlier, moved, unknown⟩)
      · cases none
      · cases moved
        exact unknown
  occurred := by
    show (GraphEngine.enter edge e').occurred = true ↔ _
    exact ⟨fun _ => ⟨_, _, rfl⟩, fun _ => rfl⟩
  visited s := by
    rw [mem_visited_enter, same, h.visited, List.mem_cons, Motion.entered.injEq]
    exact or_left_comm
  nodup := by
    rw [visited_enter, same]
    split
    · exact h.nodup
    · exact List.nodup_cons.2 ⟨‹_›, h.nodup⟩
  reachable s member := by
    rcases (mem_visited_enter _ _).1 member with rfl | old
    · exact reachable
    · exact h.reachable s (same ▸ old)

section Operations

variable {b : Bench} (h : Recalls g moves b.engine)

include h

theorem forward (sound : b.engine.Sound g) :
    Recalls g ((b.motion? (.step .forward)).toList ++ moves) b.engine.forward.2 := by
  obtain ⟨top, rest, frames⟩ := sound.wellFormed.exists_frames
  rcases sound.wellFormed.forward_cases frames with ⟨edge, enters⟩ | ⟨-, stuck⟩
  · have moved : b.engine.forward = _ := enters.forward
    have reached : g.Reachable edge.target := by
      obtain ⟨_, _, frames'⟩ := enters.wellFormed.exists_frames
      exact (enters.wellFormed.route frames').reachable
    simp only [Bench.motion?, moved, if_true, current_enter]
    exact h.enter rfl reached
  · have stayed : b.engine.forward = _ := stuck
    simp only [Bench.motion?, stayed, Bool.false_eq_true, if_false]
    exact h.stalled (m := .halted) rfl rfl rfl (by simp)

theorem backtrack (sound : b.engine.Sound g) :
    Recalls g ((b.motion? (.step .backtrack)).toList ++ moves) b.engine.backtrack.2 := by
  obtain ⟨top, rest, frames⟩ := sound.wellFormed.exists_frames
  cases rest with
  | nil =>
    simp only [Bench.motion?, backtrack_root frames, Bool.false_eq_true, if_false]
    exact h
  | cons below rest =>
    simp only [Bench.motion?, backtrack_of_frames frames, if_true]
    exact h.stalled (m := .retreated) rfl rfl rfl (by simp)

theorem restore (number : Nat) :
    Recalls g ((b.motion? (.restore number)).toList ++ moves) (b.perform (.restore number)).engine := by
  simp only [Bench.motion?, Bench.perform]
  cases b.snapshots[number]? with
  | none => exact h
  | some s =>
    cases payload : s.payload with
    | none =>
      simp only [GraphEngine.restore, payload, Bool.false_eq_true, if_false]
      exact h
    | some saved =>
      simp only [GraphEngine.restore, payload, if_true]
      exact h.stalled (m := .resumed) rfl rfl rfl (by simp)

/-- One operation adds its move to what the engine recalls. -/
theorem perform (sound : b.Sound g) (c : Command) :
    Recalls g ((b.motion? c).toList ++ moves) (b.perform c).engine := by
  cases c with
  | step step =>
    cases step with
    | forward => exact h.forward sound.engine
    | backtrack => exact h.backtrack sound.engine
  | restore number => exact h.restore number
  | ignore mark => exact h.congr rfl rfl rfl
  | snapshot => exact h
  | resetChoice =>
    have kept : b.engine.resetChoice.isNew = b.engine.isNew ∧
        b.engine.resetChoice.occurred = b.engine.occurred := by
      unfold GraphEngine.resetChoice
      split <;> exact ⟨rfl, rfl⟩
    exact h.congr kept.1 kept.2 (visited_resetChoice _)

end Operations

/-- The engine recalls all moves of every sequence of operations. -/
theorem after {b : Bench} (h : Recalls g moves b.engine) (sound : b.Sound g) (history : List Command) :
    Recalls g (b.motions history ++ moves) (b.after history).engine := by
  induction history generalizing b moves with
  | nil => exact h
  | cons c history ih =>
    rw [Bench.motions, List.append_assoc]
    exact ih (h.perform sound c) (sound.perform c)

end Recalls

theorem Bench.after_append (b : Bench) (history later : List Command) :
    b.after (history ++ later) = (b.after history).after later :=
  List.foldl_append

theorem occurred_ofGraph (made : ofGraph g = .ok e) : e.occurred = false := by
  obtain ⟨-, rfl⟩ := ofGraph_eq_ok_iff.1 made
  rfl

theorem occurred_withRandomChoices (seed : Nat) (e : GraphEngine) :
    (e.withRandomChoices seed).occurred = e.occurred := by
  unfold withRandomChoices
  split <;> rfl

/-- After every sequence of operations an engine is in a new state exactly if it made no move yet, or if
    its last move went into a state, other than the initial one, that it had never entered.  What it has
    visited is the initial state and all that it ever entered; all of it can be reached, and none of it
    is forgotten later. -/
theorem newness_is_exact {e₀ : GraphEngine} (made : ofGraph g = .ok e₀)
    (order : e = e₀ ∨ ∃ seed, e = e₀.withRandomChoices seed) (history later : List Command) :
    let b : Bench := { engine := e }
    let now := (b.after history).engine
    let moves := b.motions history
    (Engine.isNew now = true ↔
        moves = [] ∨ ∃ s earlier, moves = .entered s :: earlier ∧ s ≠ 0 ∧ .entered s ∉ earlier) ∧
      (Engine.occurred now = true ↔ ∃ s earlier, moves = .entered s :: earlier) ∧
      (∀ s, s ∈ now.visited ↔ s = 0 ∨ .entered s ∈ moves) ∧ now.visited.Nodup ∧
      (∀ s ∈ now.visited, g.Reachable s) ∧
      now.visited ⊆ (b.after (history ++ later)).engine.visited := by
  intro b now moves
  have start : Fresh g e ∧ e.occurred = false := by
    rcases order with rfl | ⟨seed, rfl⟩
    · exact ⟨fresh_ofGraph made, occurred_ofGraph made⟩
    · refine ⟨(fresh_ofGraph made).withRandomChoices seed, ?_⟩
      rw [occurred_withRandomChoices, occurred_ofGraph made]
  have sound : b.Sound g := Bench.sound_of_fresh start.1
  have recalls := (Recalls.start start.1 start.2).after (b := b) sound history
  rw [List.append_nil] at recalls
  refine ⟨recalls.isNew, recalls.occurred, recalls.visited, recalls.nodup, recalls.reachable, ?_⟩
  rw [Bench.after_append]
  exact (sound.after history).visited_after later

/-- The engine comes to the second state, returns to where it started, comes to the second state again
    and then to the third one. -/
def wander : List Command :=
  [.snapshot, .step .forward, .step .backtrack, .step .forward, .restore 0, .step .forward,
    .step .backtrack, .step .forward, .step .forward]

theorem tangle_newness_is_exact : ∃ e, ofGraph .tangle = .ok e ∧
    let b : Bench := { engine := e }
    b.motions wander = [.entered 2, .entered 1, .retreated, .entered 0, .resumed, .entered 1, .retreated,
        .entered 0] ∧
      Engine.isNew (b.after wander).engine = true ∧ Engine.isNew (b.after wander.dropLast).engine = false ∧
      ∀ s, s ∈ (b.after wander).engine.visited ↔ s = 0 ∨ .entered s ∈ b.motions wander := by
  obtain ⟨e, made⟩ : ∃ e, ofGraph .tangle = .ok e := ⟨_, rfl⟩
  refine ⟨e, made, ?_⟩
  intro b
  have moves : b.motions wander = [.entered 2, .entered 1, .retreated, .entered 0, .resumed, .entered 1,
      .retreated, .entered 0] := by
    cases made
    decide +kernel
  have before : b.motions wander.dropLast = [.entered 1, .retreated, .entered 0, .resumed, .entered 1,
      .retreated, .entered 0] := by
    cases made
    decide +kernel
  obtain ⟨now, -, visited, -⟩ := newness_is_exact made (.inl rfl) wander []
  obtain ⟨earlier, -⟩ := newness_is_exact made (.inl rfl) wander.dropLast []
  refine ⟨moves, now.2 (.inr ⟨_, _, moves, by decide, by decide⟩), ?_, visited⟩
  rw [Bool.eq_false_iff, Ne, earlier, before]
  rintro (none | ⟨s, others, same, -, unknown⟩)
  · cases none
  · cases same
    exact unknown (by decide)

end Statewalk.GraphEngine
