import Statewalk.Proofs.BestFirstSteps
import Statewalk.Proofs.Frontiers
import Statewalk.Proofs.GraphRuns

/-! # Best-first runs over a state graph

A quiet best-first search of a state graph, whatever its heuristic.  The states in `F` are left again as
soon as they are entered and never queued; an exhaustive search has no such states.  The open frames of
the ledger are the current one and those on top of the queued snapshots, in whatever order they are queued.

* `Moves` — what a search may do, with what held before; what the moves keep holds at the end.
* `attains_run_of_hits` — the run comes to its end, whatever it does about a violation.
* `attains_run_graph` — an exhaustive run ends with an empty queue or at a violation.
-/

namespace Statewalk

open GraphEngine (Enters)

/-! ## Queued states -/

/-- The frames of a queued snapshot. -/
def Queued.frames (q : Queued GraphEngine) : List Frame :=
  match (q.snapshot.payload : Option GraphEngine.Saved) with
  | some saved => saved.frames
  | none => []

/-- The queued snapshot has the frames and the path, which lead through visited states. -/
structure Held (g : StateGraph) (visited : List StateId) (q : Queued GraphEngine) (top : Frame)
    (rest : List Frame) (path : Path) : Prop where
  payload : q.snapshot.payload = some ({ frames := top :: rest, path } : GraphEngine.Saved)
  stacked : Stacked g (top :: rest) path.recent
  application : path.application = g.name
  pathLength : q.snapshot.pathLength = rest.length
  met : ∀ f ∈ top :: rest, f.state ∈ visited
  state : q.state = top.state
  room : rest.length < visited.length

namespace Held

variable {g : StateGraph} {visited visited' : List StateId} {q : Queued GraphEngine} {top : Frame}
  {rest : List Frame} {path : Path}

theorem frames (h : Held g visited q top rest path) : q.frames = top :: rest := by
  unfold Queued.frames
  rw [h.payload]

theorem mono (h : Held g visited q top rest path) (sub : ∀ s ∈ visited, s ∈ visited')
    (length : visited.length ≤ visited'.length) : Held g visited' q top rest path :=
  { h with met := fun f hf => sub _ (h.met f hf), room := Nat.lt_of_lt_of_le h.room length }

/-- A snapshot of an engine that leads through visited states. -/
theorem of_engine {e : GraphEngine} (wellFormed : e.WellFormed g) (frames : e.frames = top :: rest)
    (met : ∀ f ∈ e.frames, f.state ∈ e.visited) (room : rest.length < e.visited.length) :
    Held g e.visited { snapshot := e.snapshot, state := top.state } top rest e.path where
  payload := by
    rw [← frames]
    rfl
  stacked := frames ▸ wellFormed.stacked
  application := wellFormed.application
  pathLength := by
    show e.frames.length - 1 = _
    rw [frames]
    rfl
  met := frames ▸ met
  state := rfl
  room := room

theorem restore (h : Held g visited q top rest path) (e : GraphEngine) :
    Engine.restore q.snapshot e =
      (true, GraphEngine.syncThreads { e.stall with frames := top :: rest, path }) := by
  show GraphEngine.restore q.snapshot e = _
  rw [GraphEngine.restore, h.payload]

/-- The engine after it returned to the snapshot. -/
theorem placed_restore {e : GraphEngine} (h : Held g visited q top rest path) (placed : e.Placed g)
    (same : e.visited = visited) :
    GraphEngine.Placed g (GraphEngine.syncThreads { e.stall with frames := top :: rest, path }) := by
  refine ⟨⟨placed.wellFormed.graph, h.stacked, h.application, ?_⟩, placed.ignored, same ▸ h.met⟩
  rw [← placed.wellFormed.graph]
  rfl

theorem engine_resumed {P : Type} {A : Audience GraphEngine P} {r : Run GraphEngine P}
    (h : Held g visited q top rest path) : (r.resumed A q.snapshot).engine =
      GraphEngine.syncThreads { r.engine.stall with frames := top :: rest, path } :=
  congrArg Prod.snd (h.restore r.engine)

theorem visited_resumed {P : Type} {A : Audience GraphEngine P} {r : Run GraphEngine P}
    (h : Held g visited q top rest path) : (r.resumed A q.snapshot).engine.visited = r.engine.visited := by
  rw [h.engine_resumed]
  rfl

end Held

namespace BestFirst

variable {H P : Type} {g : StateGraph} {c : Config} {ps : List (Watched P)} {bad : StateId → Bool}
  {F : List StateId} {A : Audience GraphEngine P} {b b' : BestFirst H GraphEngine}
  {r s : Run GraphEngine P} {top : Frame} {rest : List Frame} {edge : Edge}

/-- The open frames of the queued states. -/
def openTops (b : BestFirst H GraphEngine) : List Frame :=
  b.frontier.entries.flatMap fun entry => entry.2.frames.take 1

theorem openTops_enqueued (i : Int) (h : H) (q : Queued GraphEngine) :
    (b.enqueued i h q).openTops.Perm (q.frames.take 1 ++ b.openTops) :=
  (Frontier.insertInto_perm _ q b.frontier.entries).flatMap_right _

/-- The frame of a successor moves from the stack into the queue. -/
theorem ledger_enqueued {visited : List StateId} {crossings : List Crossing} {q : Queued GraphEngine}
    {successor : Frame} (i : Int) (h : H) (frames : q.frames = successor :: rest)
    (ledger : Ledger g visited crossings (successor :: top :: b.openTops)) :
    Ledger g visited crossings (top :: (b.enqueued i h q).openTops) := by
  refine ledger.perm ?_
  refine (List.Perm.swap ..).trans (.cons _ ?_)
  refine List.Perm.trans ?_ (openTops_enqueued i h q).symm
  rw [frames]
  exact .refl _

/-! ## Invariants -/

/-- The queued snapshot has frames that lead through visited states, none of them in `F`. -/
def Kept (g : StateGraph) (F visited : List StateId) (q : Queued GraphEngine) : Prop :=
  ∃ top rest path, Held g visited q top rest path ∧ ∀ f ∈ top :: rest, f.state ∉ F

theorem Kept.mono {visited visited' : List StateId} {q : Queued GraphEngine} (h : Kept g F visited q)
    (sub : ∀ s ∈ visited, s ∈ visited') (length : visited.length ≤ visited'.length) :
    Kept g F visited' q := by
  obtain ⟨top, rest, path, held, allowed⟩ := h
  exact ⟨top, rest, path, held.mono sub length, allowed⟩

/-- What holds while a state is expanded: its frame and those on top of the queued snapshots are
    open. -/
structure Expanding (g : StateGraph) (c : Config) (ps : List (Watched P)) (F : List StateId)
    (p : BestFirst H GraphEngine × Run GraphEngine P) : Prop where
  afoot : p.2.Afoot g c ps
  allowed : ∀ f ∈ p.2.engine.frames, f.state ∉ F
  ledger : Ledger (g.sealed F) p.2.engine.visited p.2.journal.crossings
    (p.2.engine.frames.take 1 ++ p.1.openTops)
  room : p.2.engine.frames.length ≤ p.2.engine.visited.length
  kept : ∀ entry ∈ p.1.frontier.entries, Kept g F p.2.engine.visited entry.2

/-- What holds when a state has been expanded: only the frames on top of the queued snapshots are
    open. -/
structure Rested (g : StateGraph) (c : Config) (ps : List (Watched P)) (F : List StateId)
    (p : BestFirst H GraphEngine × Run GraphEngine P) : Prop where
  afoot : p.2.Afoot g c ps
  ledger : Ledger (g.sealed F) p.2.engine.visited p.2.journal.crossings p.1.openTops
  kept : ∀ entry ∈ p.1.frontier.entries, Kept g F p.2.engine.visited entry.2

/-- The moves of a best-first search, and what held before them. -/
inductive Moves (g : StateGraph) (c : Config) (ps : List (Watched P)) (F : List StateId)
    (A : Audience GraphEngine P) [Heuristic H GraphEngine P] :
    BestFirst H GraphEngine × Run GraphEngine P → BestFirst H GraphEngine × Run GraphEngine P → Prop where
  /-- A successor is not queued: it ends here or is known. -/
  | passed {b : BestFirst H GraphEngine} {r : Run GraphEngine P} {top : Frame} {rest : List Frame}
      {edge : Edge} : Expanding g c ps F (b, r) → Enters g r.engine top rest edge → edge.target ∉ F →
      (g.isEnd edge.target || decide (edge.target ∈ r.engine.visited)) = true →
      Moves g c ps F A (b, r) (b, (r.onward A).retreated A)
  /-- A successor is to be left at once. -/
  | struck {b : BestFirst H GraphEngine} {r s : Run GraphEngine P} {top : Frame} {rest : List Frame}
      {edge : Edge} : Expanding g c ps F (b, r) → Enters g r.engine top rest edge → edge.target ∈ F →
      s.engine = (r.onward A).engine → s.journal.crossings = (r.onward A).journal.crossings →
      Moves g c ps F A (b, r) (b, s.retreated A)
  /-- A successor is queued: it is new and does not end here. -/
  | stored {b : BestFirst H GraphEngine} {r : Run GraphEngine P} {top : Frame} {rest : List Frame}
      {edge : Edge} {i : Int} {h : H} : Expanding g c ps F (b, r) → Enters g r.engine top rest edge →
      edge.target ∉ F → g.isEnd edge.target = false → edge.target ∉ r.engine.visited →
      Heuristic.Ranks b.heuristic ((r.onward A).judged true r.depths) i h →
      Moves g c ps F A (b, r)
        (b.enqueued i h { snapshot := (r.onward A).engine.snapshot, state := edge.target },
          (((r.onward A).judged true r.depths).said A .stateStored).retreated A)
  /-- There are no more successors. -/
  | completed {b : BestFirst H GraphEngine} {r : Run GraphEngine P} : Expanding g c ps F (b, r) →
      Engine.forward r.engine = (false, r.engine.stall) → Moves g c ps F A (b, r) (b, r.halted A)
  /-- The best queued state is taken out and expanded. -/
  | resumed {b : BestFirst H GraphEngine} {r : Run GraphEngine P} {key : Key}
      {best : Queued GraphEngine} {others : List (Key × Queued GraphEngine)} :
      Rested g c ps F (b, r) → b.frontier.entries = (key, best) :: others →
      Moves g c ps F A (b, r)
        ({ b with frontier := { entries := others } }, r.resumed A best.snapshot)

theorem Expanding.of_start {h : H} (start : r.AtStart g c ps bad) (outside : 0 ∉ F) :
    Expanding g c ps F (started h, r) := by
  obtain ⟨choices, frames⟩ := start.fresh.frames
  refine ⟨start.toAfoot, ?_, ?_, ?_, nofun⟩
  · simp [frames, outside]
  · have ledger := start.ledger outside
    rw [frames] at ledger ⊢
    exact ledger
  · rw [frames, start.fresh.visited]
    exact Nat.le_refl 1

theorem Expanding.depth_lt (h : Expanding g c ps F (b, r)) (valid : g.validate = .ok ()) :
    r.depth < g.size := by
  have depth := h.afoot.depth
  have room := h.room
  have visited := h.ledger.visited_le (StateGraph.validate_sealed valid)
  simp only [StateGraph.size_sealed] at depth room visited
  omega

theorem Expanding.ledger_top (h : Expanding g c ps F (b, r)) (frames : r.engine.frames = top :: rest) :
    Ledger (g.sealed F) r.engine.visited r.journal.crossings (top :: b.openTops) := by
  have ledger := h.ledger
  rw [frames] at ledger
  exact ledger

theorem Expanding.allowed_top (h : Expanding g c ps F (b, r)) (frames : r.engine.frames = top :: rest) :
    top.state ∉ F :=
  h.allowed top (frames ▸ List.mem_cons_self)

theorem Expanding.kept_onward (h : Expanding g c ps F (b, r)) (enters : Enters g r.engine top rest edge) :
    ∀ entry ∈ b.frontier.entries, Kept g F (r.onward A).engine.visited entry.2 := by
  intro entry hentry
  refine (h.kept entry hentry).mono ?_ (Run.length_visited_onward enters)
  rw [Run.engine_onward enters]
  exact fun s hs => (GraphEngine.mem_visited_enter edge _).2 (.inr hs)

section Steps

variable {L : Type} [Listener GraphEngine P L] {ls : List L} (hears : A.Hears c ls)

include hears

/-- The search returns from a successor, which may have been queued in between. -/
theorem Expanding.returned (h : Expanding g c ps F (b, r)) (enters : Enters g r.engine top rest edge)
    (afoot : s.Afoot g c ps) (engine : s.engine = (r.onward A).engine)
    (crossings : s.journal.crossings = (r.onward A).journal.crossings)
    (ledger : Ledger (g.sealed F) (r.onward A).engine.visited (r.onward A).journal.crossings
      (top.next :: b'.openTops))
    (kept : ∀ entry ∈ b'.frontier.entries, Kept g F (r.onward A).engine.visited entry.2) :
    Expanding g c ps F (b', s.retreated A) := by
  have frames : s.engine.frames = _ := engine ▸ Run.frames_onward enters
  have popped := Run.engine_retreated (A := A) frames
  have allowed : ∀ f ∈ r.engine.frames, f.state ∉ F := h.allowed
  have room : r.engine.frames.length ≤ r.engine.visited.length := h.room
  rw [enters.frames] at allowed room
  refine ⟨afoot.retreated hears frames, ?_, ?_, ?_, ?_⟩
  · rw [popped]
    exact List.forall_mem_cons.2 (List.forall_mem_cons.1 allowed)
  · rw [popped, Run.crossings_retreated, crossings, engine]
    exact ledger
  · -- Entering a state never makes the visited ones fewer.
    rw [popped, engine]
    exact Nat.le_trans room (Run.length_visited_onward enters)
  · rw [popped, engine]
    exact kept

theorem Expanding.passed (h : Expanding g c ps F (b, r)) (enters : Enters g r.engine top rest edge)
    (target : edge.target ∉ F)
    (passing : (g.isEnd edge.target || decide (edge.target ∈ r.engine.visited)) = true) :
    Expanding g c ps F (b, (r.onward A).retreated A) := by
  refine h.returned hears enters (h.afoot.onward hears enters) rfl rfl ?_ (h.kept_onward enters)
  apply Run.ledger_passing enters (h.ledger_top enters.frames) (h.allowed_top enters.frames)
  rw [StateGraph.isEnd_sealed_of_not_mem target]
  simpa [or_comm] using passing

theorem Expanding.struck (h : Expanding g c ps F (b, r)) (valid : g.validate = .ok ())
    (enters : Enters g r.engine top rest edge) (forbidden : edge.target ∈ F) (afoot : s.Afoot g c ps)
    (engine : s.engine = (r.onward A).engine)
    (crossings : s.journal.crossings = (r.onward A).journal.crossings) :
    Expanding g c ps F (b, s.retreated A) :=
  h.returned hears enters afoot engine crossings
    (Run.ledger_passing enters (h.ledger_top enters.frames) (h.allowed_top enters.frames)
      (.inr (StateGraph.isEnd_sealed_of_mem forbidden (enters.target_lt valid)))) (h.kept_onward enters)

omit hears in
theorem judged_onward_eq (enters : Enters g r.engine top rest edge) (unseen : edge.target ∉ r.engine.visited) :
    (r.onward A).judged (r.onward A).engine.isNew (r.onward A).depths = (r.onward A).judged true r.depths := by
  rw [Run.isNew_onward enters, decide_eq_true unseen]
  rfl

theorem Expanding.stored (h : Expanding g c ps F (b, r)) (enters : Enters g r.engine top rest edge)
    (target : edge.target ∉ F) (unseen : edge.target ∉ r.engine.visited)
    (plain : c.matchByMinDepth = false) (i : Int) (heuristic : H) :
    Expanding g c ps F
      (b.enqueued i heuristic { snapshot := (r.onward A).engine.snapshot, state := edge.target },
        (((r.onward A).judged true r.depths).said A .stateStored).retreated A) := by
  have onward := h.afoot.onward hears enters
  have judged := onward.judged plain
  rw [judged_onward_eq enters unseen] at judged
  have here := h.allowed_top enters.frames
  have ledger := Run.ledger_allowed (A := A) enters (h.ledger_top enters.frames) here h.afoot.wellFormed
    unseen target
  have frames := Run.frames_onward (A := A) enters
  refine h.returned hears enters (judged.said hears .stateStored) rfl (Run.crossings_said _) ?_ ?_
  · exact ledger_enqueued i heuristic frames ledger
  · intro entry hentry
    rcases Frontier.mem_insertInto.1 hentry with rfl | hentry
    · refine ⟨_, _, _, .of_engine onward.wellFormed frames onward.met ?_, ?_⟩
      · exact Run.room_onward enters unseen h.room
      · have allowed : ∀ f ∈ r.engine.frames, f.state ∉ F := h.allowed
        rw [enters.frames] at allowed
        exact List.forall_mem_cons.2 ⟨target, List.forall_mem_cons.2 (List.forall_mem_cons.1 allowed)⟩
    · exact h.kept_onward enters entry hentry

theorem Expanding.completed (h : Expanding g c ps F (b, r)) (frames : r.engine.frames = top :: rest)
    (spent : top.tried = top.choices.length)
    (stuck : Engine.forward r.engine = (false, r.engine.stall)) :
    Rested g c ps F (b, r.halted A) := by
  refine ⟨h.afoot.halted hears stuck, ?_, ?_⟩
  · rw [Run.engine_halted stuck, Run.crossings_halted stuck]
    exact (h.ledger_top frames).close (Frame.remaining_eq_nil spent)
  · rw [Run.engine_halted stuck]
    exact h.kept

theorem Rested.resumed (h : Rested g c ps F (b, r)) {key : Key} {best : Queued GraphEngine}
    {others : List (Key × Queued GraphEngine)}
    (entries : b.frontier.entries = (key, best) :: others) :
    Expanding g c ps F
      ({ b with frontier := { entries := others } }, r.resumed A best.snapshot) := by
  obtain ⟨top, rest, path, held, allowed⟩ := h.kept (key, best) (entries ▸ List.mem_cons_self)
  have engine := held.engine_resumed (A := A) (r := r)
  refine ⟨h.afoot.resumed hears ?_ ?_, ?_, ?_, ?_, ?_⟩
  · exact engine ▸ held.placed_restore h.afoot.placed rfl
  · rw [engine]
    exact congrArg (· + 1) held.pathLength
  · rw [engine]
    exact allowed
  · have ledger := h.ledger
    rw [engine, Run.crossings_resumed]
    simp only [openTops, entries, List.flatMap_cons, held.frames] at ledger
    exact ledger
  · rw [engine]
    exact held.room
  · intro entry hentry
    rw [engine]
    exact h.kept entry (entries ▸ List.mem_cons_of_mem _ hentry)

end Steps

/-- With an empty queue the search went through the whole graph. -/
theorem Rested.closed (h : Rested g c ps F (b, r)) (empty : b.frontier.entries = []) :
    Ledger (g.sealed F) r.engine.visited r.journal.crossings [] := by
  have ledger := h.ledger
  simp only [openTops, empty, List.flatMap_nil] at ledger
  exact ledger

/-! ## Progress -/

section Progress

/-- Bounds the number of expansions to come: the states that are queued or not visited yet. -/
def potential (g : StateGraph) (p : BestFirst H GraphEngine × Run GraphEngine P) : Nat :=
  g.size - p.2.engine.visited.length + p.1.frontier.size

theorem potential_started (heuristic : H) (visited : r.engine.visited = [0]) (positive : 0 < g.size) :
    potential g (started heuristic, r) < g.size := by
  simp only [potential, started, visited, List.length_singleton, Frontier.size, List.length_nil]
  omega

theorem potential_halted (stuck : Engine.forward r.engine = (false, r.engine.stall)) :
    potential g (b, r.halted A) = potential g (b, r) := by
  simp only [potential, Run.engine_halted stuck]
  rfl

/-- One queued state less, and none that was visited more. -/
theorem potential_resumed {key : Key} {best : Queued GraphEngine} {others : List (Key × Queued GraphEngine)}
    {g' : StateGraph} {path : Path} (held : Held g' r.engine.visited best top rest path)
    (entries : b.frontier.entries = (key, best) :: others) :
    potential g ({ b with frontier := { entries := others } }, r.resumed A best.snapshot) <
      potential g (b, r) := by
  have visited : (r.resumed A best.snapshot).engine.visited = r.engine.visited := held.visited_resumed
  simp only [potential, visited, Frontier.size, entries, List.length_cons]
  omega

/-- Bounds the number of successors to come. -/
def successors (g : StateGraph) (p : BestFirst H GraphEngine × Run GraphEngine P) : Nat :=
  Ledger.total g - p.2.journal.crossings.length

section Returned

variable (enters : Enters g r.engine top rest edge) (engine : s.engine = (r.onward A).engine)

include enters

theorem backtrack_onward : Engine.backtrack (r.onward A).engine =
    (true, (r.onward A).engine.popped (top.next :: rest)) :=
  GraphEngine.backtrack_of_frames (Run.frames_onward enters)

include engine in
theorem visited_returned : (s.retreated A).engine.visited = (r.onward A).engine.visited := by
  have frames : s.engine.frames = _ := engine ▸ Run.frames_onward enters
  rw [Run.engine_retreated frames, engine]
  rfl

include engine in
/-- A successor that was entered and left is one less to come; the states that are queued or not
    visited yet are at most as many as before. -/
theorem lowers_returned {g' : StateGraph} {fs : List Frame} {b' : BestFirst H GraphEngine}
    (valid : g'.validate = .ok ())
    (ledger : Ledger g' (s.retreated A).engine.visited (s.retreated A).journal.crossings fs)
    (crossings : s.journal.crossings = (r.onward A).journal.crossings)
    (queued : b'.frontier.size + r.engine.visited.length ≤
      b.frontier.size + (r.onward A).engine.visited.length) :
    potential g' (b', s.retreated A) ≤ potential g' (b, r) ∧
      successors g' (b', s.retreated A) < successors g' (b, r) := by
  have visited := visited_returned enters engine
  have taken : (s.retreated A).journal.crossings.length = r.journal.crossings.length + 1 := by
    rw [Run.crossings_retreated, crossings, Run.crossings_onward enters]
    simp
  have most := ledger.crossings_le valid
  have room := ledger.visited_le valid
  rw [visited] at room
  simp only [potential, successors, visited]
  omega

/-- A new successor is no longer to be visited, but it is queued. -/
theorem size_enqueued (unseen : edge.target ∉ r.engine.visited) (i : Int) (h : H)
    (q : Queued GraphEngine) : (b.enqueued i h q).frontier.size + r.engine.visited.length ≤
      b.frontier.size + (r.onward A).engine.visited.length := by
  rw [Run.visited_onward_of_not_mem enters unseen, List.length_cons, enqueued, Frontier.size_insert]
  omega

end Returned

variable [Heuristic H GraphEngine P]

/-- A search that started with a given run can come here. -/
def Reached (g : StateGraph) (c : Config) (ps : List (Watched P)) (F : List StateId)
    (A : Audience GraphEngine P) (start : Run GraphEngine P)
    (p : BestFirst H GraphEngine × Run GraphEngine P) : Prop :=
  ∃ h, Relation.ReflTransGen (Moves g c ps F A) (started h, start) p

variable {start : Run GraphEngine P} {p q : BestFirst H GraphEngine × Run GraphEngine P}

theorem Reached.tail (h : Reached g c ps F A start p) (moves : Moves g c ps F A p q) :
    Reached g c ps F A start q := by
  obtain ⟨heuristic, path⟩ := h
  exact ⟨heuristic, path.tail moves⟩

/-- What holds at the start and is kept by every move holds wherever a search comes. -/
theorem Reached.induction {J : BestFirst H GraphEngine × Run GraphEngine P → Prop}
    (h : Reached g c ps F A start p) (base : ∀ h, J (started h, start))
    (step : ∀ p q, J p → Moves g c ps F A p q → J q) : J p := by
  obtain ⟨heuristic, path⟩ := h
  induction path with
  | refl => exact base heuristic
  | tail _ moves ih => exact step _ _ ih moves

/-- What holds between the successors of a state, in a run that keeps `J`. -/
structure Busy (g : StateGraph) (c : Config) (ps : List (Watched P)) (F : List StateId)
    (A : Audience GraphEngine P) (J : Run GraphEngine P → Prop) (start : Run GraphEngine P) (bound : Nat)
    (p : BestFirst H GraphEngine × Run GraphEngine P) : Prop where
  run : J p.2
  expanding : Expanding g c ps F p
  reached : Reached g c ps F A start p
  bounded : potential (g.sealed F) p < bound

/-- What holds between two expansions. -/
structure Resting (g : StateGraph) (c : Config) (ps : List (Watched P)) (F : List StateId)
    (A : Audience GraphEngine P) (J : Run GraphEngine P → Prop) (start : Run GraphEngine P)
    (p : BestFirst H GraphEngine × Run GraphEngine P) : Prop where
  run : J p.2
  rested : Rested g c ps F p
  reached : Reached g c ps F A start p

/-- What generating a successor leads to. -/
abbrev Generated (g : StateGraph) (c : Config) (ps : List (Watched P)) (F : List StateId)
    (A : Audience GraphEngine P) (J : Run GraphEngine P → Prop) (start : Run GraphEngine P)
    (post : StopReason → BestFirst H GraphEngine × Run GraphEngine P → Prop) (bound : Nat)
    (p : BestFirst H GraphEngine × Run GraphEngine P) :
    Turn Unit (Option StopReason) → BestFirst H GraphEngine × Run GraphEngine P → Prop :=
  Turn.Leads (fun _ => Busy g c ps F A J start bound) (fun _ => successors (g.sealed F))
    (successors (g.sealed F) p)
    (Halts (fun q => Resting g c ps F A J start q ∧ potential (g.sealed F) q < bound) post)

variable {J : Run GraphEngine P → Prop} {bound : Nat}
  {post : StopReason → BestFirst H GraphEngine × Run GraphEngine P → Prop}

/-- The search goes on after it returned from a successor. -/
theorem Busy.generated (h : Busy g c ps F A J start bound (b, r)) (valid : g.validate = .ok ())
    (run : J (s.retreated A)) (expanding : Expanding g c ps F (b', s.retreated A))
    (moves : Moves g c ps F A (b, r) (b', s.retreated A)) (enters : Enters g r.engine top rest edge)
    (engine : s.engine = (r.onward A).engine)
    (crossings : s.journal.crossings = (r.onward A).journal.crossings)
    (queued : b'.frontier.size + r.engine.visited.length ≤
      b.frontier.size + (r.onward A).engine.visited.length) :
    Generated g c ps F A J start post bound (b, r) (.again ()) (b', s.retreated A) := by
  obtain ⟨less, fewer⟩ := lowers_returned enters engine (StateGraph.validate_sealed valid) expanding.ledger
    crossings queued
  exact ⟨⟨run, expanding, h.reached.tail moves, Nat.lt_of_le_of_lt less h.bounded⟩, fewer⟩

variable [Checkable GraphEngine P] {L : Type} [Listener GraphEngine P L] {ls : List L}
  (hears : A.Hears c ls) (guards : Search.Guards GraphEngine ps bad)
  (total : Heuristic.Total H GraphEngine P)

include hears guards total

/-- A successor that breaks no property is looked at and left.  It is queued unless it ends here or was
    visited before. -/
theorem attains_generate_entered
    {post : Turn Unit (Option StopReason) → BestFirst H GraphEngine × Run GraphEngine P → Prop}
    (wellFormed : r.engine.WellFormed g) (ignored : r.engine.ignored = []) (config : r.config = c)
    (matching : r.matching = true) (unprobed : r.probeRequested = false) (properties : r.properties = ps)
    (plain : c.matchByMinDepth = false) (merging : c.pathSensitive = false)
    (roomy : c.queueLimit = none) (below : r.depth + 1 < c.depthLimit) (shallow : r.depth + 1 < 2 ^ 63)
    (enters : Enters g r.engine top rest edge) (good : bad edge.target = false)
    (passed : (g.isEnd edge.target || decide (edge.target ∈ r.engine.visited)) = true →
      post (.again ()) (b, (r.onward A).retreated A))
    (stored : g.isEnd edge.target = false → edge.target ∉ r.engine.visited → ∀ i h',
      Heuristic.Ranks b.heuristic ((r.onward A).judged true r.depths) i h' → post (.again ())
        (b.enqueued i h' { snapshot := (r.onward A).engine.snapshot, state := edge.target },
          (((r.onward A).judged true r.depths).said A .stateStored).retreated A)) :
    Attains (Tracks c ls) (generate ()) (b, r) post := by
  have word : r.depth + 1 < wordLimit := succ_lt_wordLimit (by omega)
  have good' : bad (Engine.stateId (Engine.forward r.engine).2) = false := by rw [enters.state, good]
  have recalls : (r.onward A).Recalls := Search.recalls_said hears config (Run.recalls_of_none rfl)
  have isEnd : Engine.isEnd (r.onward A).engine = g.isEnd edge.target := by
    rw [Run.engine_onward enters, ← wellFormed.graph]
    rfl
  have isIgnored : Engine.isIgnored (r.onward A).engine = false :=
    GraphEngine.isIgnored_of_nil ((Run.ignored_onward enters).trans ignored)
  have isNew : Engine.isNew (r.onward A).engine = decide (edge.target ∉ r.engine.visited) :=
    Run.isNew_onward enters
  have back : (Engine.backtrack (r.onward A).engine).1 = true := by rw [backtrack_onward enters]
  cases passing : g.isEnd edge.target || decide (edge.target ∈ r.engine.visited) with
  | true =>
    -- A known state was asked about, which makes no difference once the search returned from it.
    refine attains_generate_of_good hears guards properties unprobed enters.moved good' word
      (fun q => q = (b, r.onward A) ∨ q = (b, (r.onward A).judged false r.depths)) ?_ ?_
    · cases ends : g.isEnd edge.target with
      | true =>
        refine (yields_receive_passing rfl ?_).attains ⟨rfl, .inl rfl⟩
        rw [isEnd, ends]
        rfl
      | false =>
        rw [ends, Bool.false_or, decide_eq_true_eq] at passing
        refine (yields_receive_known (r := r.onward A) matching recalls rfl ?_ (config.symm ▸ plain)
          (config.symm ▸ merging) ?_).attains ⟨rfl, .inr rfl⟩
        · rw [isEnd, ends, isIgnored]
          rfl
        · rw [isNew]
          simpa using passing
    · rintro q (rfl | rfl)
      · exact (yields_leave hears back (Nat.succ_ne_zero _)).attains (passed passing)
      · exact (yields_leave (r := (r.onward A).judged false r.depths) hears back
          (Nat.succ_ne_zero _)).attains (passed passing)
  | false =>
    rw [Bool.or_eq_false_iff, decide_eq_false_iff_not] at passing
    obtain ⟨lasting, unseen⟩ := passing
    refine attains_generate_of_good hears guards properties unprobed enters.moved good' word
      (fun q => ∃ i h', Heuristic.Ranks b.heuristic ((r.onward A).judged true r.depths) i h' ∧
        q = (b.enqueued i h' { snapshot := (r.onward A).engine.snapshot, state := edge.target },
          ((r.onward A).judged true r.depths).said A .stateStored)) ?_ ?_
    · rw [← Run.state_onward (A := A) enters]
      refine attains_receive_new (r := r.onward A) hears matching recalls rfl ?_ config plain roomy below
        ?_ rfl total shallow
      · rw [isEnd, lasting, isIgnored]
        rfl
      · rw [isNew]
        simpa using unseen
    · rintro _ ⟨i, h', ranks, rfl⟩
      exact (yields_leave (r := ((r.onward A).judged true r.depths).said A .stateStored) hears back
        (Nat.succ_ne_zero _)).attains (stored lasting unseen i h' ranks)

variable (valid : g.validate = .ok ()) (spacious : c.Spacious g.size) (small : g.size < 2 ^ 63)
  (persistent : Run.Persistent g c ps bad J) (apart : ∀ s, bad s = false → s ∉ F)

include valid spacious small persistent apart

theorem attains_generate_returned (h : Busy g c ps F A J start bound (b, r))
    (enters : Enters g r.engine top rest edge) (good : bad edge.target = false) :
    Attains (Tracks c ls) (generate ()) (b, r) (Generated g c ps F A J start post bound (b, r)) := by
  have expanding := h.expanding
  have afoot := expanding.afoot
  have target := apart _ good
  have shallow : r.depth < g.size := expanding.depth_lt valid
  have deep := spacious.deep
  have harmless : r.Harmless bad (r.onward A) := .onward enters good
  have frames := Run.frames_onward (A := A) enters
  refine attains_generate_entered hears guards total afoot.wellFormed afoot.ignored afoot.config
    afoot.matching afoot.unprobed afoot.properties spacious.plain spacious.merging spacious.roomy
    (by omega) (by omega) enters good ?_ ?_
  · intro passing
    have passed := expanding.passed hears enters target passing
    exact h.generated valid (persistent h.run passed.afoot (harmless.trans (.retreated frames)))
      passed (.passed expanding enters target passing) enters rfl rfl
      (Nat.add_le_add_left (Run.length_visited_onward enters) _)
  · intro lasting unseen i h' ranks
    let told := ((r.onward A).judged true r.depths).said A .stateStored
    have stored := expanding.stored hears enters target unseen spacious.plain i h'
    have judged : r.Harmless bad ((r.onward A).judged true r.depths) := harmless.trans (.judged _ _ _)
    have said : r.Harmless bad told := judged.trans (.said _ nofun)
    have harmless := said.trans (.retreated (A := A) (r := told) frames)
    exact h.generated valid (persistent h.run stored.afoot harmless) stored
      (.stored expanding enters target lasting unseen ranks) enters rfl (Run.crossings_said _)
      (size_enqueued enters unseen i h' _)

variable (good : ∀ b r, J r → Expanding (H := H) g c ps F (b, r) → ∀ f ∈ r.engine.frames, bad f.state = false)
  (hits : ∀ bound b r top rest edge, Busy g c ps F A J start bound (b, r) →
    Enters g r.engine top rest edge → bad edge.target = true → r.depth + 1 < wordLimit →
    Attains (Tracks c ls) (generate ()) (b, r) (Generated g c ps F A J start post bound (b, r)))

include good hits

theorem attains_generate (h : Busy g c ps F A J start bound (b, r)) :
    Attains (Tracks c ls) (generate ()) (b, r) (Generated g c ps F A J start post bound (b, r)) := by
  have afoot := h.expanding.afoot
  have shallow : r.depth < g.size := h.expanding.depth_lt valid
  have word : r.depth + 1 < wordLimit := succ_lt_wordLimit (by omega)
  obtain ⟨top, rest, frames⟩ := afoot.exists_frames
  -- The engine follows an edge, to a state that is bad or not, or it has none left.
  rcases afoot.wellFormed.forward_cases frames with ⟨edge, enters⟩ | ⟨spent, stuck⟩
  · cases violated : bad edge.target with
    | false =>
      exact attains_generate_returned hears guards total valid spacious small persistent apart h enters
        violated
    | true => exact hits bound b r top rest edge h enters violated word
  · have fine : bad (Engine.stateId (Engine.forward r.engine).2) = false := by
      rw [stuck, GraphEngine.stateId_stall frames]
      exact good b r h.run h.expanding top (frames ▸ List.mem_cons_self)
    have rested := h.expanding.completed hears frames spent stuck
    refine (yields_generate_halted hears guards afoot.properties afoot.unprobed (by rw [stuck])
      fine).attains ⟨⟨?_, rested, h.reached.tail (.completed h.expanding stuck)⟩, ?_⟩
    · exact persistent h.run rested.afoot (.halted stuck)
    · exact (potential_halted stuck).trans_lt h.bounded

/-- A run comes to its end, if it does so or goes on when it enters a bad state. -/
theorem attains_run_of_hits {r : Run GraphEngine P} (h : r.AtStart g c ps bad) (outside : 0 ∉ F)
    (same : start = (r.said A .searchStarted).said A .stateStored) (run : J start)
    (ends : ∀ b q, Resting (H := H) g c ps F A J start (b, q) → b.frontier.entries = [] →
      post .exhausted (b, q))
    (recalls : ∀ reason q, post reason q → q.2.Recalls) : ∃ budget,
    Attains (Tracks c ls) (BestFirst.run budget) (b, r) fun o q => ∃ reason q',
      post reason q' ∧ o = q'.2.outcome reason ∧ q = (q'.1, q'.2.concluded A) := by
  subst same
  have atStart := (h.said hears .searchStarted).said hears .stateStored
  let first := (r.said A .searchStarted).said A .stateStored
  refine attains_run (Busy g c ps F A J first) (Resting g c ps F A J first) (successors (g.sealed F))
    (potential (g.sealed F)) g.size (fun _ => Nat.sub_le _ _) ?_ hears ?_ ?_ ends h.matching h.recalls
    h.config spacious.roomy h.depth_eq_pathLength ?_ rfl total ?_ recalls
  · exact fun _ b r busy => ⟨busy.expanding.afoot.notDone, attains_generate hears guards total valid
      spacious small persistent apart good hits busy⟩
  · exact fun _ resting => resting.rested.afoot.notDone
  · intro b r key best others h entries
    obtain ⟨top, rest, path, held, -⟩ := h.rested.kept (key, best) (entries ▸ List.mem_cons_self)
    have resumed := h.rested.resumed hears entries
    exact ⟨congrArg Prod.fst (held.restore r.engine),
      persistent h.run resumed.afoot (.resumed held.visited_resumed), resumed,
      h.reached.tail (.resumed h.rested entries), potential_resumed held entries⟩
  · rw [h.depth_eq]
    decide
  · intro heuristic
    have positive := (StateGraph.validate_eq_ok_iff.1 valid).1
    rw [← StateGraph.size_sealed (F := F)] at positive ⊢
    exact ⟨run, .of_start atStart outside, ⟨heuristic, .refl⟩,
      potential_started heuristic atStart.fresh.visited positive⟩

end Progress

/-! ## Exhaustive runs -/

theorem Rested.exhausted (h : Rested g c ps [] (b, r)) (underway : r.Underway g c ps bad)
    (empty : b.frontier.entries = []) : r.Exhausted g bad := by
  have ledger := h.closed empty
  rw [StateGraph.sealed_nil] at ledger
  exact ⟨ledger, underway.good, underway.violations, underway.recalls⟩

section Exhaustive

variable [Heuristic H GraphEngine P] {start : Run GraphEngine P}
  {p : BestFirst H GraphEngine × Run GraphEngine P}

/-- How an exhaustive search that started with a given run comes to its end. -/
inductive Finished (g : StateGraph) (c : Config) (ps : List (Watched P)) (bad : StateId → Bool)
    (A : Audience GraphEngine P) [Property P] (start : Run GraphEngine P) :
    StopReason → BestFirst H GraphEngine × Run GraphEngine P → Prop where
  | exhausted {b : BestFirst H GraphEngine} {r : Run GraphEngine P} : r.Underway g c ps bad →
      Rested g c ps [] (b, r) → b.frontier.entries = [] → Reached g c ps [] A start (b, r) →
      Finished g c ps bad A start .exhausted (b, r)
  | caught {b : BestFirst H GraphEngine} {r q : Run GraphEngine P} {top : Frame} {rest : List Frame}
      {edge : Edge} {ps' : List (Watched P)} {w : Watched P} : r.Underway g c ps bad →
      Reached g c ps [] A start (b, r) → Enters g r.engine top rest edge →
      bad edge.target = true → q.engine = (r.broken ps' w).engine →
      q.violations = (r.broken ps' w).violations → q.Recalls →
      Finished g c ps bad A start .propertyViolated (b, q)

theorem Finished.stopped [Property P] (single : c.continueOnViolation = false) {reason : StopReason}
    (h : Finished g c ps bad A start reason p) : p.2.Stopped g bad reason := by
  cases h with
  | exhausted underway rested empty _ => exact .exhausted (rested.exhausted underway empty)
  | caught underway _ enters violated engine violations recalls =>
    exact .caught (underway.caught single enters violated engine violations recalls)

variable [Checkable GraphEngine P] {L : Type} [Listener GraphEngine P L] {ls : List L}
  (hears : A.Hears c ls) (guards : Search.Guards GraphEngine ps bad) (valid : g.validate = .ok ())
  (exhaustive : c.Exhaustive g.size) (small : g.size < 2 ^ 63) (total : Heuristic.Total H GraphEngine P)

include hears guards valid exhaustive small total

/-- An exhaustive best-first run comes to its end, whatever the heuristic. -/
theorem attains_run_graph (h : r.AtStart g c ps bad) : ∃ budget,
    Attains (Tracks c ls) (run budget) (b, r) fun o q => ∃ reason q',
      Finished g c ps bad A ((r.said A .searchStarted).said A .stateStored) reason q' ∧
        o = q'.2.outcome reason ∧ q = (q'.1, q'.2.concluded A) := by
  refine attains_run_of_hits (F := []) hears guards total valid exhaustive.toSpacious small
    Run.Underway.persistent (by simp) (fun _ _ underway _ => underway.good_frames) ?_ h (by simp) rfl
    ((h.said hears _).said hears _).toUnderway ?_ ?_
  · -- The first violation ends the run.
    intro bound b r top rest edge busy enters violated word
    have afoot := busy.expanding.afoot
    refine (attains_generate_caught hears guards afoot.properties afoot.unprobed afoot.config
      afoot.matching exhaustive.plain exhaustive.single enters.moved (by rw [enters.state, violated])
      word).imp ?_
    rintro _ _ ⟨rfl, ps', w, q', rfl, engine, violations, recalls⟩
    exact .caught busy.run busy.reached enters violated engine violations recalls
  · exact fun _ _ resting empty => .exhausted resting.run resting.rested empty resting.reached
  · exact fun _ _ finished => (finished.stopped exhaustive.single).recalls

theorem ends_graph (h : r.AtStart g c ps bad) {s : Search GraphEngine P L} (mirrors : Mirrors c ls s r)
    (b : BestFirst H GraphEngine) : ∃ reason q x,
      Ends run { strategy := b, search := s } (q.2.outcome reason) x ∧
        Finished g c ps bad A ((r.said A .searchStarted).said A .stateStored) reason q ∧
        x.strategy = q.1 ∧ Mirrors c ls x.search (q.2.concluded A) := by
  obtain ⟨budget, attains⟩ := attains_run_graph (b := b) hears guards valid exhaustive small total h
  obtain ⟨o, x, _, ends, tracks, reason, q, finished, rfl, rfl⟩ :=
    attains.ends steady_run (s := { strategy := b, search := s }) ⟨rfl, mirrors⟩
  exact ⟨reason, q, x, ends, finished, tracks.1, tracks.2⟩

end Exhaustive

end BestFirst

end Statewalk
