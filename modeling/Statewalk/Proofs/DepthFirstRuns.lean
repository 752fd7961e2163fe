import Statewalk.Proofs.GraphRuns

/-! # Depth-first runs over a state graph

A quiet depth-first search of a state graph that does not match states by depth.  The states in `F` are
left again as soon as they are entered, on a request to step back; an exhaustive search has no such
states.  The frames on the stack are the open ones of the ledger, with one exception: between two
iterations the current frame is open only if its state is new and no request was made, since the search is
about to leave it otherwise.

* `Moves` — what a run may do, with what held before; what the moves keep holds at the end.
* `attains_run_of_hits` — the run comes to its end, whatever it does about a violation.
* `attains_run_graph` — an exhaustive run ends with a closed ledger or at a violation.
-/

namespace Statewalk

/-- The run once a request to step back was taken. -/
abbrev Run.obeying {P : Type} (r : Run GraphEngine P) : Run GraphEngine P :=
  { r with backtrackRequested := false }

namespace DepthFirst

open GraphEngine (Enters)

variable {P : Type} {g : StateGraph} {c : Config} {ps : List (Watched P)} {bad : StateId → Bool}
  {F : List StateId} {A : Audience GraphEngine P} {r q : Run GraphEngine P} {top below : Frame}
  {rest : List Frame} {edge : Edge}

/-! ## Open frames -/

/-- The frames that are open between two iterations. -/
def openFrames (r : Run GraphEngine P) : List Frame :=
  if r.engine.isNew && !r.backtrackRequested then r.engine.frames else r.engine.frames.tail

/-- What holds between two iterations: the search was asked to step back if and only if it is in a state
    that is to be left at once. -/
structure Head (g : StateGraph) (c : Config) (ps : List (Watched P)) (F : List StateId)
    (r : Run GraphEngine P) : Prop extends Run.Afoot g c ps r where
  requested : r.backtrackRequested = true ↔ ∃ f ∈ r.engine.frames, f.state ∈ F
  below : ∀ f ∈ r.engine.frames.tail, f.state ∉ F
  ledger : Ledger (g.sealed F) r.engine.visited r.journal.crossings (openFrames r)
  room : (openFrames r).length ≤ r.engine.visited.length

/-- What holds before the search tries to go on: all frames are open. -/
structure Ready (g : StateGraph) (c : Config) (ps : List (Watched P)) (F : List StateId)
    (r : Run GraphEngine P) : Prop extends Run.Afoot g c ps r where
  unrequested : r.backtrackRequested = false
  allowed : ∀ f ∈ r.engine.frames, f.state ∉ F
  ledger : Ledger (g.sealed F) r.engine.visited r.journal.crossings r.engine.frames
  room : r.engine.frames.length ≤ r.engine.visited.length

theorem Head.of_start (h : Run.AtStart g c ps bad r) (outside : 0 ∉ F) : Head g c ps F r := by
  have opened : openFrames r = r.engine.frames := by
    simp [openFrames, h.fresh.isNew, h.unrequested]
  obtain ⟨choices, frames⟩ := h.fresh.frames
  refine { h.toAfoot with requested := ?_, below := ?_, ledger := ?_, room := ?_ }
  · simp [frames, outside, h.unrequested]
  · simp [frames]
  · exact opened ▸ h.ledger outside
  · rw [opened, frames, h.fresh.visited]
    exact Nat.le_refl 1

/-- Without states that are to be left at once there is no request. -/
theorem Head.unrequested (h : Head g c ps [] r) : r.backtrackRequested = false := by
  simpa using h.requested

theorem Head.obeying_eq (h : Head g c ps [] r) : r.obeying = r := by
  rw [Run.obeying, ← h.unrequested]

/-! ## Moves -/

/-- Where an iteration is: it judges the current state, or is about to go on, or found that it cannot
    step back. -/
inductive Phase where
  | judging
  | going
  | ended

/-- The moves of a depth-first run, and what held before them. -/
inductive Moves (g : StateGraph) (c : Config) (ps : List (Watched P)) (F : List StateId)
    (A : Audience GraphEngine P) : Phase × Run GraphEngine P → Phase × Run GraphEngine P → Prop where
  | stayed {r : Run GraphEngine P} : Head g c ps F r → leaves false r.engine.isNew r.engine = false →
      Moves g c ps F A (.judging, r) (.going, r.judged r.engine.isNew r.depths)
  | retreated {r : Run GraphEngine P} {top below : Frame} {rest : List Frame} : Head g c ps F r →
      (r.backtrackRequested || leaves false r.engine.isNew r.engine) = true →
      r.engine.frames = top :: below :: rest → Moves g c ps F A (.judging, r) (.going, r.obeying.retreated A)
  | onward {r : Run GraphEngine P} {top : Frame} {rest : List Frame} {edge : Edge} :
      Ready g c ps F r → Enters g r.engine top rest edge → edge.target ∉ F →
      Moves g c ps F A (.going, r) (.judging, r.onward A)
  /-- A state is entered that is to be left at once. -/
  | struck {r q : Run GraphEngine P} {top : Frame} {rest : List Frame} {edge : Edge} :
      Ready g c ps F r → Enters g r.engine top rest edge → edge.target ∈ F →
      q.engine = (r.onward A).engine → q.journal.crossings = (r.onward A).journal.crossings →
      q.backtrackRequested = true → Moves g c ps F A (.going, r) (.judging, q)
  | halted {r : Run GraphEngine P} {top : Frame} {rest : List Frame} : Ready g c ps F r →
      r.engine.frames = top :: rest → top.tried = top.choices.length →
      Engine.forward r.engine = (false, r.engine.stall) →
      Moves g c ps F A (.going, r) (.judging, r.halted A)
  | refused {r : Run GraphEngine P} {top : Frame} : Head g c ps F r →
      (r.backtrackRequested || leaves false r.engine.isNew r.engine) = true → r.engine.frames = [top] →
      Moves g c ps F A (.judging, r) (.ended, r.obeying.forgetQuery.stepBack.2)

/-- A search that started with a given run can come here. -/
def Reached (g : StateGraph) (c : Config) (ps : List (Watched P)) (F : List StateId)
    (A : Audience GraphEngine P) (start : Run GraphEngine P) (phase : Phase) (r : Run GraphEngine P) :
    Prop :=
  Relation.ReflTransGen (Moves g c ps F A) (.judging, start) (phase, r)

theorem Reached.induction {J : Phase → Run GraphEngine P → Prop} {start : Run GraphEngine P} {phase : Phase}
    (h : Reached g c ps F A start phase r) (base : J .judging start)
    (step : ∀ p q, J p.1 p.2 → Moves g c ps F A p q → J q.1 q.2) : J phase r := by
  have along {p : Phase × Run GraphEngine P}
      (moves : Relation.ReflTransGen (Moves g c ps F A) (.judging, start) p) : J p.1 p.2 := by
    induction moves with
    | refl => exact base
    | tail _ move ih => exact step _ _ ih move
  exact along h

/-- A search that is ready to go on is not too deep. -/
theorem Ready.depth_lt (h : Ready g c ps F r) (valid : g.validate = .ok ()) : r.depth < g.size := by
  have depth := h.depth
  have room := h.room
  have visited := h.ledger.visited_le (StateGraph.validate_sealed valid)
  rw [StateGraph.size_sealed] at visited
  omega

theorem leaves_false {e : GraphEngine} (ignored : e.ignored = []) (frames : e.frames = top :: rest) :
    leaves false e.isNew e = (!e.isNew || e.graph.isEnd top.state) := by
  rw [leaves, GraphEngine.isIgnored_of_nil ignored, Bool.or_false, Bool.or_false,
    ← GraphEngine.current_of_frames frames]
  rfl

theorem isNew_of_stays {e : GraphEngine} (placed : e.Placed g) (stays : leaves false e.isNew e = false) :
    e.isNew = true := by
  obtain ⟨top, rest, frames⟩ := placed.wellFormed.exists_frames
  rw [leaves_false placed.ignored frames, Bool.or_eq_false_iff] at stays
  simpa using stays.1

/-- A state that is not left is new, so that all frames are open. -/
theorem Head.stay (h : Head g c ps F r) (plain : c.matchByMinDepth = false)
    (unrequested : r.backtrackRequested = false)
    (stays : leaves false r.engine.isNew r.engine = false) :
    Ready g c ps F (r.judged r.engine.isNew r.depths) := by
  have opened : openFrames r = r.engine.frames := by
    simp [openFrames, isNew_of_stays h.placed stays, unrequested]
  refine { h.toAfoot.judged plain with unrequested, allowed := ?_, ledger := ?_, room := ?_ }
  · intro f hf forbidden
    rw [h.requested.2 ⟨f, hf, forbidden⟩] at unrequested
    cases unrequested
  · exact opened ▸ h.ledger
  · exact opened ▸ h.room

/-- The frame of a state that is left was not open, or has nothing left to take. -/
theorem Head.leave (h : Head g c ps F r) (frames : r.engine.frames = top :: rest)
    (left : (r.backtrackRequested || leaves false r.engine.isNew r.engine) = true) :
    Ledger (g.sealed F) r.engine.visited r.journal.crossings rest ∧
      rest.length ≤ r.engine.visited.length := by
  have ledger := h.ledger
  have room := h.room
  unfold openFrames at ledger room
  rw [frames] at ledger room
  cases opens : r.engine.isNew && !r.backtrackRequested with
  | false =>
    rw [opens] at ledger room
    exact ⟨ledger, room⟩
  | true =>
    rw [opens] at ledger room
    rw [Bool.and_eq_true, Bool.not_eq_true'] at opens
    -- Without a request a new state is left only if it ends here, and then it has no transitions.
    have isEnd : g.isEnd top.state = true := by
      rw [leaves_false h.ignored frames, h.wellFormed.graph] at left
      simpa [opens] using left
    have proper : top.Proper g := (frames ▸ h.wellFormed.stacked).proper
    exact ⟨ledger.close (proper.remaining_of_end isEnd _), Nat.le_of_succ_le room⟩

/-- A search that has to leave the initial state went through the whole graph. -/
theorem Head.closed (h : Head g c ps F r) (frames : r.engine.frames = [top])
    (left : (r.backtrackRequested || leaves false r.engine.isNew r.engine) = true) :
    Ledger (g.sealed F) r.obeying.forgetQuery.stepBack.2.engine.visited
      r.obeying.forgetQuery.stepBack.2.journal.crossings [] := by
  rw [Run.crossings_stepBack, Run.engine_stepBack_of_root (r := r.obeying) frames]
  exact (h.leave frames left).1

section Steps

variable {L : Type} [Listener GraphEngine P L] {ls : List L} (hears : A.Hears c ls)

include hears

theorem Head.retreated (h : Head g c ps F r) (frames : r.engine.frames = top :: below :: rest)
    (left : (r.backtrackRequested || leaves false r.engine.isNew r.engine) = true) :
    Ready g c ps F (r.obeying.retreated A) := by
  obtain ⟨ledger, room⟩ := h.leave frames left
  have engine : (r.obeying.retreated A).engine = r.engine.popped (below :: rest) :=
    Run.engine_retreated (r := r.obeying) frames
  refine { (h.toAfoot.requesting false).retreated hears frames with
    unrequested := rfl, allowed := ?_, ledger := ?_, room := ?_ }
  · have below := h.below
    rw [frames] at below
    rw [engine]
    exact below
  · rw [engine, Run.crossings_retreated]
    exact ledger
  · rw [engine]
    exact room

omit hears in
theorem Ready.allowed_onward (h : Ready g c ps F r) (enters : Enters g r.engine top rest edge) :
    top.state ∉ F ∧ ∀ f ∈ (r.onward A).engine.frames.tail, f.state ∉ F := by
  have allowed := h.allowed
  rw [enters.frames, List.forall_mem_cons] at allowed
  rw [Run.frames_onward enters]
  exact ⟨allowed.1, List.forall_mem_cons.2 allowed⟩

theorem Ready.onward (h : Ready g c ps F r) (enters : Enters g r.engine top rest edge)
    (target : edge.target ∉ F) : Head g c ps F (r.onward A) := by
  have ledger := h.ledger
  have room := h.room
  rw [enters.frames] at ledger room
  have frames := Run.frames_onward (A := A) enters
  obtain ⟨here, below⟩ := h.allowed_onward (A := A) enters
  have unrequested : (r.onward A).backtrackRequested = false := h.unrequested
  have requested : (r.onward A).backtrackRequested = true ↔
      ∃ f ∈ (r.onward A).engine.frames, f.state ∈ F := by
    rw [frames] at below ⊢
    simpa [unrequested, GraphEngine.entered, target] using below
  by_cases seen : edge.target ∈ r.engine.visited
  · -- The entered frame is not open: the search will leave it at once.
    have opened : openFrames (r.onward A) = top.next :: rest := by
      simp [openFrames, Run.engine_onward enters, seen]
    refine { h.toAfoot.onward hears enters with requested, below, ledger := ?_, room := ?_ }
    · rw [opened]
      exact Run.ledger_passing enters ledger here (.inl seen)
    · rw [opened, Run.engine_onward enters]
      simpa [seen] using room
  · have opened : openFrames (r.onward A) = (r.onward A).engine.frames := by
      simp [openFrames, Run.engine_onward enters, seen, unrequested]
    refine { h.toAfoot.onward hears enters with requested, below, ledger := ?_, room := ?_ }
    · rw [opened, frames]
      exact Run.ledger_allowed enters ledger here h.wellFormed seen target
    · rw [opened, Run.engine_onward enters]
      simpa [seen] using room

omit hears in
/-- The frame of a state that is left at once is not open, although the state may be new. -/
theorem Ready.struck (h : Ready g c ps F r) (valid : g.validate = .ok ())
    (enters : Enters g r.engine top rest edge) (forbidden : edge.target ∈ F) (afoot : q.Afoot g c ps)
    (engine : q.engine = (r.onward A).engine)
    (crossings : q.journal.crossings = (r.onward A).journal.crossings)
    (requested : q.backtrackRequested = true) : Head g c ps F q := by
  have ledger := h.ledger
  have room := h.room
  rw [enters.frames] at ledger room
  have frames := Run.frames_onward (A := A) enters
  obtain ⟨here, below⟩ := h.allowed_onward (A := A) enters
  have opened : openFrames q = top.next :: rest := by
    rw [openFrames, requested, engine, frames]
    simp
  refine { afoot with requested := ?_, below := engine ▸ below, ledger := ?_, room := ?_ }
  · rw [requested, engine, frames]
    exact ⟨fun _ => ⟨_, List.mem_cons_self, forbidden⟩, fun _ => rfl⟩
  · rw [opened, engine, crossings]
    exact Run.ledger_passing enters ledger here
      (.inr (StateGraph.isEnd_sealed_of_mem forbidden (enters.target_lt valid)))
  · rw [opened, engine]
    exact Nat.le_trans room (Run.length_visited_onward enters)

theorem Ready.halted (h : Ready g c ps F r) (frames : r.engine.frames = top :: rest)
    (spent : top.tried = top.choices.length)
    (stuck : Engine.forward r.engine = (false, r.engine.stall)) : Head g c ps F (r.halted A) := by
  have engine := Run.engine_halted (A := A) stuck
  have ledger := h.ledger
  have room := h.room
  rw [frames] at ledger room
  have opened : openFrames (r.halted A) = rest := by
    simp [openFrames, engine, GraphEngine.stall, frames]
  have unrequested : (r.halted A).backtrackRequested = false := h.unrequested
  refine { h.toAfoot.halted hears stuck with requested := ?_, below := ?_, ledger := ?_, room := ?_ }
  · rw [engine, unrequested]
    simpa [GraphEngine.stall] using h.allowed
  · rw [engine]
    exact fun f hf => h.allowed f (List.mem_of_mem_tail hf)
  · rw [opened, engine, Run.crossings_halted stuck]
    exact ledger.close (Frame.remaining_eq_nil spent)
  · rw [opened, engine]
    exact Nat.le_of_succ_le room

end Steps

/-! ## Progress -/

/-- Bounds the number of iterations to come.  Each iteration takes a transition, or steps back, or
    finds that a new state has no transitions left. -/
def potential (g : StateGraph) (r : Run GraphEngine P) : Nat :=
  2 * (Ledger.total g - r.journal.crossings.length) + r.engine.frames.length +
    r.engine.isNew.toNat

/-- Bounds them when the search is about to go on from the current state. -/
def allowance (g : StateGraph) (r : Run GraphEngine P) : Nat :=
  2 * (Ledger.total g - r.journal.crossings.length) + r.engine.frames.length + 1

theorem potential_of_isNew (isNew : r.engine.isNew = true) : potential g r = allowance g r := by
  rw [potential, isNew]
  rfl

/-- One more transition was taken, so there was one left to take. -/
theorem potential_lt {g' : StateGraph} {fs : List Frame} (valid : g'.validate = .ok ())
    (enters : Enters g r.engine top rest edge)
    (ledger : Ledger g' q.engine.visited q.journal.crossings fs) (engine : q.engine = (r.onward A).engine)
    (crossings : q.journal.crossings = (r.onward A).journal.crossings) :
    potential g' q < allowance g' r := by
  have taken := ledger.crossings_le valid
  have isNew := Bool.toNat_le q.engine.isNew
  have frames : q.engine.frames.length = r.engine.frames.length + 1 := engine ▸ enters.frames_length
  rw [crossings, Run.crossings_onward enters, List.length_append, List.length_singleton] at taken
  rw [potential, allowance, crossings, Run.crossings_onward enters, List.length_append,
    List.length_singleton]
  omega

theorem potential_halted (stuck : Engine.forward r.engine = (false, r.engine.stall)) :
    potential g (r.halted A) < allowance g r := by
  rw [potential, Run.crossings_halted stuck, Run.engine_halted stuck]
  exact Nat.lt_succ_self _

theorem allowance_retreated (frames : r.engine.frames = top :: below :: rest) :
    allowance g (r.obeying.retreated A) ≤ potential g r := by
  rw [allowance, Run.crossings_retreated, Run.engine_retreated (r := r.obeying) frames, potential, frames]
  simp only [GraphEngine.frames_popped, List.length_cons]
  omega

/-- What holds between two iterations of a run that started with a given one and keeps `J`. -/
structure Going (g : StateGraph) (c : Config) (ps : List (Watched P)) (F : List StateId)
    (A : Audience GraphEngine P) (J : Run GraphEngine P → Prop) (start : Run GraphEngine P) (limit : Bool)
    (r : Run GraphEngine P) : Prop where
  unlimited : limit = false
  run : J r
  head : Head g c ps F r
  reached : Reached g c ps F A start .judging r

/-- What an iteration leads to. -/
abbrev Led (g : StateGraph) (c : Config) (ps : List (Watched P)) (F : List StateId)
    (A : Audience GraphEngine P) (J : Run GraphEngine P → Prop) (start : Run GraphEngine P)
    (post : StopReason → Run GraphEngine P → Prop) (bound : Nat) :
    Turn Bool StopReason → Run GraphEngine P → Prop :=
  Turn.Leads (Going g c ps F A J start) (fun _ => potential (g.sealed F)) bound post

section Progress

variable [Checkable GraphEngine P] {L : Type} [Listener GraphEngine P L] {ls : List L}
  {start : Run GraphEngine P} {J : Run GraphEngine P → Prop}
  {post : StopReason → Run GraphEngine P → Prop} (hears : A.Hears c ls)
  (guards : Search.Guards GraphEngine ps bad) (valid : g.validate = .ok ()) (spacious : c.Spacious g.size)
  (small : g.size < 2 ^ 63) (persistent : Run.Persistent g c ps bad J)
  (apart : ∀ s, bad s = false → s ∉ F)
  (good : ∀ r, J r → Ready g c ps F r → ∀ f ∈ r.engine.frames, bad f.state = false)
  (hits : ∀ r top rest edge, J r → Ready g c ps F r → Reached g c ps F A start .going r →
    Enters g r.engine top rest edge → bad edge.target = true → r.depth + 1 < wordLimit →
    Attains (Mirrors c ls) (advance false) r (Led g c ps F A J start post (allowance (g.sealed F) r)))
  (ends : ∀ r top, J r → Head g c ps F r → Reached g c ps F A start .judging r →
    (r.backtrackRequested || leaves false r.engine.isNew r.engine) = true → r.engine.frames = [top] →
    post .exhausted r.obeying.forgetQuery.stepBack.2)

include hears guards valid spacious small persistent apart good hits

theorem attains_advance (run : J r) (h : Ready g c ps F r) (reached : Reached g c ps F A start .going r) :
    Attains (Mirrors c ls) (advance false) r
      (Led g c ps F A J start post (allowance (g.sealed F) r)) := by
  have valid' := StateGraph.validate_sealed (F := F) valid
  obtain ⟨top, rest, frames⟩ := h.exists_frames
  have shallow : r.depth < g.size := h.depth_lt valid
  have deep := spacious.deep
  have word : r.depth + 1 < wordLimit := succ_lt_wordLimit (by omega)
  -- The engine follows an edge, to a state that is bad or not, or it has none left.
  rcases h.wellFormed.forward_cases frames with ⟨edge, enters⟩ | ⟨spent, stuck⟩
  · cases violated : bad edge.target with
    | false =>
      refine (yields_advance_onward hears guards h.config h.properties enters.moved
        (by rw [enters.state, violated]) word (by omega)).imp ?_
      rintro _ _ ⟨rfl, rfl⟩
      have head := h.onward hears enters (apart _ violated)
      exact ⟨⟨rfl, persistent run head.toAfoot (.onward enters violated), head,
        reached.tail (.onward h enters (apart _ violated))⟩, potential_lt valid' enters head.ledger rfl rfl⟩
    | true => exact hits r top rest edge run h reached enters violated word
  · have fine : bad (Engine.stateId (Engine.forward r.engine).2) = false := by
      rw [stuck, GraphEngine.stateId_stall frames]
      exact good r run h top (frames ▸ List.mem_cons_self)
    refine (yields_advance_halted hears guards h.properties (congrArg Prod.fst stuck) fine).imp ?_
    rintro _ _ ⟨rfl, rfl⟩
    have head := h.halted hears frames spent stuck
    exact ⟨⟨rfl, persistent run head.toAfoot (.halted stuck), head,
      reached.tail (.halted h frames spent stuck)⟩, potential_halted stuck⟩

include ends

theorem attains_iterate (run : J r) (h : Head g c ps F r)
    (reached : Reached g c ps F A start .judging r) :
    Attains (Mirrors c ls) (iterate false) r
      (Led g c ps F A J start post (potential (g.sealed F) r)) := by
  have judge := Run.judge_of_plain (r := r) (h.config ▸ spacious.plain)
  refine Run.attains_iterate_graph hears h.wellFormed h.depth h.unprobed h.matching h.recalls judge rfl
    ?_ ?_ ?_
  · intro unrequested stays
    have ready := h.stay spacious.plain unrequested stays
    rw [potential_of_isNew (isNew_of_stays h.placed stays)]
    exact attains_advance hears guards valid spacious small persistent apart good hits
      (persistent run ready.toAfoot (.judged r _ _)) ready (reached.tail (.stayed h stays))
  · intro top below rest frames left
    have ready := h.retreated hears frames left
    have obeyed : r.Harmless bad r.obeying := .of_eq rfl rfl rfl fun _ => rfl
    exact (attains_advance hears guards valid spacious small persistent apart good hits
      (persistent run ready.toAfoot (obeyed.trans (.retreated frames))) ready
      (reached.tail (.retreated h left frames))).leads_le (allowance_retreated frames)
  · exact fun top frames left => ends r top run h reached left frames

/-- A run comes to its end, if it does so or goes on when it enters a bad state. -/
theorem attains_run_of_hits {r : Run GraphEngine P} (h : Run.AtStart g c ps bad r) (outside : 0 ∉ F)
    (same : start = r.said A .searchStarted) (run : J start)
    (recalls : ∀ reason q, post reason q → q.Recalls) : ∃ budget,
    Attains (Mirrors c ls) (DepthFirst.run budget) r fun o q => ∃ reason q',
      post reason q' ∧ o = q'.outcome reason ∧ q = q'.concluded A := by
  subst same
  refine attains_run (Going g c ps F A J _) (fun _ => potential (g.sealed F)) hears h.matching h.recalls
    h.depth_eq ⟨rfl, run, .of_start (h.said hears _) outside, .refl⟩ ?_ ?_ recalls
  · exact fun _ _ going => going.head.notDone
  · rintro _ q ⟨rfl, run, head, reached⟩
    exact attains_iterate hears guards valid spacious small persistent apart good hits ends run head reached

end Progress

/-! ## Exhaustive runs -/

/-- What holds of a run that started with a given one and came to its end. -/
structure Finished (g : StateGraph) (c : Config) (ps : List (Watched P)) (bad : StateId → Bool)
    (A : Audience GraphEngine P) (start : Run GraphEngine P) (reason : StopReason)
    (r : Run GraphEngine P) : Prop where
  stopped : Run.Stopped g bad reason r
  exhausted : reason = .exhausted → r.depth = 0 ∧ Reached g c ps [] A start .ended r

/-- A run that has nothing to avoid ends where it cannot step back. -/
theorem Finished.reached_ended {start : Run GraphEngine P} {reason : StopReason}
    (h : Finished g c ps (fun _ => false) A start reason r) :
    reason = .exhausted ∧ r.depth = 0 ∧ r.Exhausted g (fun _ => false) ∧
      Reached g c ps [] A start .ended r := by
  cases h.stopped with
  | exhausted exhausted =>
    obtain ⟨depth, reached⟩ := h.exhausted rfl
    exact ⟨rfl, depth, exhausted, reached⟩
  | caught caught =>
    obtain ⟨-, -, -, -, violated, -⟩ := caught.route
    cases violated

section Exhaustive

variable [Checkable GraphEngine P] {L : Type} [Listener GraphEngine P L] {ls : List L}
  (hears : A.Hears c ls) (guards : Search.Guards GraphEngine ps bad) (valid : g.validate = .ok ())
  (exhaustive : c.Exhaustive g.size) (small : g.size < 2 ^ 63)

include hears guards valid exhaustive small

/-- An exhaustive depth-first run comes to its end. -/
theorem attains_run_graph (h : Run.AtStart g c ps bad r) : ∃ budget,
    Attains (Mirrors c ls) (run budget) r fun o q => ∃ reason q',
      Finished g c ps bad A (r.said A .searchStarted) reason q' ∧ o = q'.outcome reason ∧
        q = q'.concluded A := by
  refine attains_run_of_hits (F := []) hears guards valid exhaustive.toSpacious small
    Run.Underway.persistent (by simp) (fun _ underway _ => underway.good_frames) ?_ ?_ h (by simp) rfl
    (h.said hears _).toUnderway fun _ _ finished => finished.stopped.recalls
  · -- The first violation ends the run.
    intro r top rest edge underway ready _ enters violated word
    refine (yields_advance_caught hears guards ready.config ready.properties exhaustive.single enters.moved
      (by rw [enters.state, violated]) word).imp ?_
    rintro _ _ ⟨rfl, ps', w, rfl⟩
    let hit : Run GraphEngine P := { r.broken ps' w with depth := r.depth + 1 }
    have recalls : (r.caught A ps' w).Recalls :=
      Search.recalls_said hears ready.config
        (Search.recalls_said (r := hit) hears ready.config (Run.recalls_of_none rfl))
    exact ⟨.caught (underway.caught exhaustive.single enters violated rfl rfl recalls), nofun⟩
  · intro r top underway head reached left frames
    have ledger := head.closed frames left
    rw [StateGraph.sealed_nil] at ledger
    have engine := Run.engine_stepBack_of_root (r := r.obeying) frames
    have depth := head.depth
    rw [frames] at depth
    exact ⟨.exhausted ⟨ledger, engine ▸ underway.good, underway.violations, Run.recalls_of_none rfl⟩,
      fun _ => ⟨Nat.succ_injective depth, reached.tail (.refused head left frames)⟩⟩

theorem ends_graph (h : Run.AtStart g c ps bad r) {s : Search GraphEngine P L}
    (mirrors : Mirrors c ls s r) : ∃ reason q t, Ends run s (q.outcome reason) t ∧
      Finished g c ps bad A (r.said A .searchStarted) reason q ∧ Mirrors c ls t (q.concluded A) := by
  obtain ⟨budget, attains⟩ := attains_run_graph hears guards valid exhaustive small h
  obtain ⟨o, t, _, ends, mirrors', reason, q, finished, rfl, rfl⟩ := attains.ends steady_run mirrors
  exact ⟨reason, q, t, ends, finished, mirrors'⟩

end Exhaustive

end DepthFirst

end Statewalk
