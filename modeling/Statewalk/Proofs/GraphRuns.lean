import Mathlib.Logic.Relation
import Statewalk.Proofs.DepthFirstSteps
import Statewalk.Proofs.ForbiddenEdges

/-! # Quiet runs over a state graph

What holds of a quiet run over a state graph between two of its operations, whatever the strategy,
and what the moves of its engine do to it.
-/

namespace Statewalk

/-- The configuration does not keep a search from going through a graph of the given size. -/
structure Config.Spacious (c : Config) (size : Nat) : Prop where
  plain : c.matchByMinDepth = false
  deep : size < c.depthLimit
  roomy : c.queueLimit = none
  merging : c.pathSensitive = false

/-- The same, and it lets the search end with the first violation. -/
structure Config.Exhaustive (c : Config) (size : Nat) : Prop extends c.Spacious size where
  single : c.continueOnViolation = false

theorem Config.exhaustive_default {size : Nat} (small : size < 2 ^ 63) :
    ({} : Config).Exhaustive size :=
  ⟨⟨rfl, Nat.lt_of_lt_of_le small (by decide), rfl, rfl⟩, rfl⟩

/-- Depths in a graph of less than `2 ^ 63` states are words, and so are their successors. -/
theorem succ_lt_wordLimit {n : Nat} (small : n < 2 ^ 63) : n + 1 < wordLimit := by
  have half : (2 : Nat) ^ 63 < wordLimit := by decide
  omega

namespace GraphEngine

variable {g : StateGraph} {e : GraphEngine} {top below : Frame} {rest : List Frame} {edge : Edge}

/-- The next choice of the engine, whose frames are the given ones, follows the edge. -/
structure Enters (g : StateGraph) (e : GraphEngine) (top : Frame) (rest : List Frame) (edge : Edge) :
    Prop where
  frames : e.frames = top :: rest
  remaining : top.remaining g = edge.transition :: top.next.remaining g
  outgoing : edge.transition ∈ g.outgoing top.state
  forward : Engine.forward e = (true, enter edge { e with frames := top.next :: rest })
  wellFormed : WellFormed g (enter edge { e with frames := top.next :: rest })

theorem Enters.moved (enters : Enters g e top rest edge) : (Engine.forward e).1 = true := by
  rw [enters.forward]

theorem Enters.state (enters : Enters g e top rest edge) :
    Engine.stateId (Engine.forward e).2 = edge.target := by
  rw [enters.forward]
  rfl

theorem Enters.frames_length (enters : Enters g e top rest edge) :
    (Engine.forward e).2.frames.length = e.frames.length + 1 := by
  rw [enters.forward, enters.frames]
  rfl

theorem Enters.target_lt (enters : Enters g e top rest edge) (valid : g.validate = .ok ()) :
    edge.target < g.size := by
  obtain ⟨-, edge', member, same⟩ := StateGraph.mem_outgoing.1 enters.outgoing
  have target : edge'.target = edge.target := congrArg Transition.state same
  exact target ▸ StateGraph.target_lt_size valid member

theorem WellFormed.enters (h : WellFormed g e) (frames : e.frames = top :: rest)
    (lt : top.tried < top.choices.length) : ∃ edge, Enters g e top rest edge := by
  obtain ⟨i, edge, choice, hedge, notEnd, remaining, forward⟩ := h.forward_of_tried_lt frames lt
  refine ⟨edge, frames, remaining, ?_, forward, h.enter frames lt choice hedge⟩
  exact StateGraph.mem_outgoing.2 ⟨notEnd, edge, List.mem_of_getElem? hedge, rfl⟩

/-- A well-formed engine follows an edge or has tried all choices of its current frame. -/
theorem WellFormed.forward_cases (h : WellFormed g e) (frames : e.frames = top :: rest) :
    (∃ edge, Enters g e top rest edge) ∨
      (top.tried = top.choices.length ∧ Engine.forward e = (false, e.stall)) := by
  have proper : top.Proper g := (frames ▸ h.stacked).proper
  rcases Nat.lt_or_eq_of_le proper.tried_le with lt | eq
  · exact .inl (h.enters frames lt)
  · exact .inr ⟨eq, forward_of_tried_eq frames eq⟩

theorem WellFormed.exists_frames (h : WellFormed g e) : ∃ top rest, e.frames = top :: rest := by
  cases frames : e.frames with
  | nil => simpa [frames] using h.frames_length
  | cons top rest => exact ⟨top, rest, rfl⟩

theorem isIgnored_of_nil (ignored : e.ignored = []) : Engine.isIgnored e = false := by
  show decide (e.current ∈ e.ignored) = false
  simp [ignored]

theorem stateId_stall (frames : e.frames = top :: rest) : Engine.stateId e.stall = top.state :=
  current_of_frames frames

/-- The engine after a step back onto the frames below the current one. -/
def popped (below : List Frame) (e : GraphEngine) : GraphEngine :=
  syncThreads { e.stall with frames := below, path := e.path.pop }

@[simp] theorem frames_popped (below : List Frame) : (popped below e).frames = below := rfl

@[simp] theorem visited_popped (below : List Frame) : (popped below e).visited = e.visited := rfl

@[simp] theorem isNew_popped (below : List Frame) : (popped below e).isNew = false := rfl

theorem depth_popped {depth : Nat} (h : depth + 1 = e.frames.length)
    (frames : e.frames = top :: below :: rest) :
    depth - 1 + 1 = (e.popped (below :: rest)).frames.length := by
  rw [frames, List.length_cons, List.length_cons] at h
  rw [frames_popped, List.length_cons]
  omega

/-- The engine is over `g`, ignores no state and has visited the states that it is in. -/
structure Placed (g : StateGraph) (e : GraphEngine) : Prop where
  wellFormed : e.WellFormed g
  ignored : e.ignored = []
  met : ∀ f ∈ e.frames, f.state ∈ e.visited

namespace Placed

theorem enter (h : Placed g e) (enters : Enters g e top rest edge) :
    Placed g (enter edge { e with frames := top.next :: rest }) := by
  refine ⟨enters.wellFormed, h.ignored, ?_⟩
  have met := h.met
  rw [enters.frames] at met
  intro f hf
  rw [mem_visited_enter]
  rcases List.mem_cons.1 hf with rfl | hf
  · exact .inl rfl
  rcases List.mem_cons.1 hf with rfl | hf
  · exact .inr (met top List.mem_cons_self)
  · exact .inr (met f (List.mem_cons_of_mem _ hf))

theorem stall (h : Placed g e) : Placed g e.stall :=
  ⟨h.wellFormed.stall, h.ignored, h.met⟩

theorem popped (h : Placed g e) (frames : e.frames = top :: below :: rest) :
    Placed g (e.popped (below :: rest)) := by
  refine ⟨h.wellFormed.backtrack frames, h.ignored, ?_⟩
  intro f hf
  exact h.met f (frames ▸ List.mem_cons_of_mem _ hf)

end Placed

end GraphEngine

open GraphEngine (Enters)

namespace Run

variable {P : Type} {g : StateGraph} {c : Config} {ps : List (Watched P)} {A : Audience GraphEngine P}
  {r : Run GraphEngine P} {top below : Frame} {rest : List Frame} {edge : Edge}

/-! ## What the moves do -/

section Onward

variable (enters : Enters g r.engine top rest edge)

include enters

theorem engine_onward :
    (r.onward A).engine = GraphEngine.enter edge { r.engine with frames := top.next :: rest } :=
  congrArg Prod.snd enters.forward

theorem frames_onward : (r.onward A).engine.frames =
    GraphEngine.entered edge { r.engine with frames := top.next :: rest } :: top.next :: rest :=
  congrArg GraphEngine.frames (engine_onward enters)

theorem graph_onward : (r.onward A).engine.graph = r.engine.graph := by
  rw [engine_onward enters]
  rfl

theorem ignored_onward : (r.onward A).engine.ignored = r.engine.ignored := by
  rw [engine_onward enters]
  rfl

theorem state_onward : Engine.stateId (r.onward A).engine = edge.target :=
  congrArg GraphEngine.current (engine_onward enters)

theorem isNew_onward : (r.onward A).engine.isNew = decide (edge.target ∉ r.engine.visited) :=
  congrArg GraphEngine.isNew (engine_onward enters)

theorem visited_onward_of_mem (seen : edge.target ∈ r.engine.visited) :
    (r.onward A).engine.visited = r.engine.visited := by
  simp [engine_onward enters, seen]

theorem visited_onward_of_not_mem (unseen : edge.target ∉ r.engine.visited) :
    (r.onward A).engine.visited = edge.target :: r.engine.visited := by
  simp [engine_onward enters, unseen]

theorem length_visited_onward : r.engine.visited.length ≤ (r.onward A).engine.visited.length := by
  rw [engine_onward enters]
  exact GraphEngine.length_visited_enter edge { r.engine with frames := top.next :: rest }

theorem room_onward (unseen : edge.target ∉ r.engine.visited)
    (room : r.engine.frames.length ≤ r.engine.visited.length) :
    (top.next :: rest).length < (r.onward A).engine.visited.length := by
  rw [enters.frames] at room
  rw [visited_onward_of_not_mem enters unseen]
  exact Nat.lt_succ_of_le room

theorem crossing?_of_enters : crossing? r.engine (Engine.forward r.engine).2 =
    some (.crossed top.state edge.transition (decide (edge.target ∉ r.engine.visited))) := by
  rw [enters.forward, ← GraphEngine.current_of_frames enters.frames]
  rfl

theorem crossings_onward : (r.onward A).journal.crossings =
    r.journal.crossings ++ [⟨top.state, edge.transition, decide (edge.target ∉ r.engine.visited)⟩] := by
  have journal : (r.onward A).journal = (r.stepJournal r.journal).record
      (.announced (Run.bulletin A.size .stateAdvanced { r.stepped with depth := r.depth + 1 })) := rfl
  -- The announcement that follows the transition tells no other.
  rw [journal, Journal.crossings_record, stepJournal, crossing?_of_enters enters, enters.forward]
  simp [Entry.crossing?]

/-! The states in `F` are entered but never left by an edge, so that they end here as far as the ledger is
concerned. -/

variable {F : List StateId} {fs : List Frame}
  (ledger : Ledger (g.sealed F) r.engine.visited r.journal.crossings (top :: fs)) (allowed : top.state ∉ F)

include ledger allowed

/-- The engine followed an edge to a state that has nothing left to take. -/
theorem ledger_passing
    (passing : edge.target ∈ r.engine.visited ∨ (g.sealed F).isEnd edge.target = true) :
    Ledger (g.sealed F) (r.onward A).engine.visited (r.onward A).journal.crossings (top.next :: fs) := by
  rw [crossings_onward enters, engine_onward enters]
  exact ledger.cross_passing allowed enters.remaining enters.outgoing passing

theorem ledger_allowed (wellFormed : r.engine.WellFormed g) (unseen : edge.target ∉ r.engine.visited)
    (target : edge.target ∉ F) :
    Ledger (g.sealed F) (r.onward A).engine.visited (r.onward A).journal.crossings
      (GraphEngine.entered edge { r.engine with frames := top.next :: rest } :: top.next :: fs) := by
  rw [visited_onward_of_not_mem enters unseen, crossings_onward enters, decide_eq_true unseen]
  refine ledger.cross_allowed allowed enters.remaining enters.outgoing unseen rfl ?_ rfl target
  rw [← wellFormed.graph]
  exact GraphEngine.proper_entered edge _

end Onward

theorem engine_halted (stuck : Engine.forward r.engine = (false, r.engine.stall)) :
    (r.halted A).engine = r.engine.stall :=
  congrArg Prod.snd stuck

theorem crossings_halted (stuck : Engine.forward r.engine = (false, r.engine.stall)) :
    (r.halted A).journal.crossings = r.journal.crossings := by
  have journal : (r.halted A).journal =
      (r.stepJournal r.journal).record (.announced (r.stepped.bulletin A.size .stateProcessed)) := rfl
  rw [journal, Journal.crossings_record, stepJournal, stuck]
  simp [Entry.crossing?]

theorem engine_retreated (frames : r.engine.frames = top :: below :: rest) :
    (r.retreated A).engine = r.engine.popped (below :: rest) :=
  congrArg Prod.snd (GraphEngine.backtrack_of_frames frames)

@[simp] theorem crossings_said (event : Event) :
    (r.said A event).journal.crossings = r.journal.crossings := by
  show (r.journal.record _).crossings = _
  simp [Entry.crossing?]

theorem crossings_retreated : (r.retreated A).journal.crossings = r.journal.crossings := by
  rw [retreated, crossings_said]
  show (r.journal.record _).crossings = _
  simp [Entry.crossing?]

theorem engine_stepped_of_enters (enters : Enters g r.engine top rest edge) :
    r.stepped.engine = GraphEngine.enter edge { r.engine with frames := top.next :: rest } :=
  congrArg Prod.snd enters.forward

theorem engine_stepped_of_stuck (stuck : Engine.forward r.engine = (false, r.engine.stall)) :
    r.stepped.engine = r.engine.stall :=
  congrArg Prod.snd stuck

theorem engine_stepBack_of_frames (frames : r.engine.frames = top :: below :: rest) :
    r.forgetQuery.stepBack.2.engine = r.engine.popped (below :: rest) :=
  congrArg Prod.snd (GraphEngine.backtrack_of_frames frames)

theorem stepBack_of_root (frames : r.engine.frames = [top]) : r.forgetQuery.stepBack.1 = false :=
  congrArg Prod.fst (GraphEngine.backtrack_root frames)

theorem engine_stepBack_of_root (frames : r.engine.frames = [top]) :
    r.forgetQuery.stepBack.2.engine = r.engine :=
  congrArg Prod.snd (GraphEngine.backtrack_root frames)

theorem crossings_stepBack (r : Run GraphEngine P) :
    r.forgetQuery.stepBack.2.journal.crossings = r.journal.crossings := by
  show (r.journal.record _).crossings = _
  simp [Entry.crossing?]

theorem crossings_stepped_of_enters (enters : Enters g r.engine top rest edge) :
    r.stepped.journal.crossings = r.journal.crossings ++
      [⟨top.state, edge.transition, decide (edge.target ∉ r.engine.visited)⟩] := by
  rw [← crossings_onward enters (A := Audience.nobody)]
  exact (crossings_said (r := { r.stepped with depth := r.depth + 1 }) .stateAdvanced).symm

theorem crossings_stepped_of_stuck (stuck : Engine.forward r.engine = (false, r.engine.stall)) :
    r.stepped.journal.crossings = r.journal.crossings := by
  rw [← crossings_halted stuck (A := Audience.nobody)]
  exact (crossings_said (r := r.stepped) .stateProcessed).symm

theorem crossings_resumed (snapshot : Snapshot (Engine.Saved GraphEngine)) :
    (r.resumed A snapshot).journal.crossings = r.journal.crossings := by
  rw [resumed, crossings_said]
  simp [Entry.crossing?]

theorem bulletins_said (event : Event) : (r.said A event).journal.bulletins =
    r.journal.bulletins ++ [r.bulletin A.size event] := by
  show (r.journal.record _).bulletins = _
  simp [Entry.bulletin?]

theorem bulletins_stepped : r.stepped.journal.bulletins = r.journal.bulletins :=
  bulletins_stepJournal r r.journal

theorem bulletins_onward : (r.onward A).journal.bulletins =
    r.journal.bulletins ++ [(r.onward A).bulletin A.size .stateAdvanced] := by
  rw [← bulletins_stepped (r := r)]
  exact bulletins_said _

theorem bulletins_halted : (r.halted A).journal.bulletins =
    r.journal.bulletins ++ [(r.halted A).bulletin A.size .stateProcessed] := by
  rw [← bulletins_stepped (r := r)]
  exact bulletins_said _

theorem bulletins_retreated : (r.retreated A).journal.bulletins =
    r.journal.bulletins ++ [(r.retreated A).bulletin A.size .stateBacktracked] := by
  have moved (done : Bool) :
      (r.journal.record (.moved .backtrack r.depth done)).bulletins = r.journal.bulletins := by
    simp [Entry.bulletin?]
  rw [← moved (Engine.backtrack r.engine).1]
  exact bulletins_said _

theorem bulletins_resumed (snapshot : Snapshot (Engine.Saved GraphEngine)) :
    (r.resumed A snapshot).journal.bulletins =
      r.journal.bulletins ++ [(r.resumed A snapshot).bulletin A.size .stateRestored] := by
  have moved : (r.journal.record (.moved .restore r.depth true)).bulletins = r.journal.bulletins := by
    simp [Entry.bulletin?]
  rw [← moved]
  exact bulletins_said _

/-! ## Between the moves -/

/-- What holds of a quiet run over `g` between two operations: the engine is in its place and as deep as
    the run says, and nothing stops the run. -/
structure Afoot (g : StateGraph) (c : Config) (ps : List (Watched P)) (r : Run GraphEngine P) : Prop where
  placed : r.engine.Placed g
  depth : r.depth + 1 = r.engine.frames.length
  config : r.config = c
  matching : r.matching = true
  unprobed : r.probeRequested = false
  notDone : r.done = false
  properties : r.properties = ps
  recalls : r.Recalls

namespace Afoot

theorem wellFormed (h : Afoot g c ps r) : r.engine.WellFormed g :=
  h.placed.wellFormed

theorem ignored (h : Afoot g c ps r) : r.engine.ignored = [] :=
  h.placed.ignored

theorem met (h : Afoot g c ps r) : ∀ f ∈ r.engine.frames, f.state ∈ r.engine.visited :=
  h.placed.met

theorem exists_frames (h : Afoot g c ps r) : ∃ top rest, r.engine.frames = top :: rest :=
  h.wellFormed.exists_frames

theorem judged (h : Afoot g c ps r) (plain : c.matchByMinDepth = false) :
    Afoot g c ps (r.judged r.engine.isNew r.depths) :=
  { h with recalls := recalls_asked (h.config ▸ plain) h.recalls }

theorem requesting (h : Afoot g c ps r) (requested : Bool) :
    Afoot g c ps { r with backtrackRequested := requested } :=
  { h with }

variable {L : Type} [Listener GraphEngine P L] {ls : List L} (hears : A.Hears c ls)

include hears

theorem said (h : Afoot g c ps r) (event : Event) : Afoot g c ps (r.said A event) :=
  { h with recalls := Search.recalls_said hears h.config h.recalls }

theorem onward (h : Afoot g c ps r) (enters : Enters g r.engine top rest edge) : Afoot g c ps (r.onward A) :=
  { h with
    placed := engine_onward (A := A) enters ▸ h.placed.enter enters
    depth := (congrArg (· + 1) h.depth).trans enters.frames_length.symm
    recalls := Search.recalls_said hears h.config (recalls_of_none rfl) }

theorem halted (h : Afoot g c ps r) (stuck : Engine.forward r.engine = (false, r.engine.stall)) :
    Afoot g c ps (r.halted A) :=
  { h with
    placed := engine_halted (A := A) stuck ▸ h.placed.stall
    depth := by
      rw [engine_halted stuck]
      exact h.depth
    recalls := Search.recalls_said hears h.config (recalls_of_none rfl) }

theorem retreated (h : Afoot g c ps r) (frames : r.engine.frames = top :: below :: rest) :
    Afoot g c ps (r.retreated A) :=
  { h with
    placed := engine_retreated (A := A) frames ▸ h.placed.popped frames
    depth := engine_retreated (A := A) frames ▸ GraphEngine.depth_popped h.depth frames
    recalls := Search.recalls_said hears h.config (recalls_of_none rfl) }

theorem resumed (h : Afoot g c ps r) {snapshot : Snapshot (Engine.Saved GraphEngine)}
    (placed : (r.resumed A snapshot).engine.Placed g)
    (depth : snapshot.pathLength + 1 = (r.resumed A snapshot).engine.frames.length) :
    Afoot g c ps (r.resumed A snapshot) :=
  { h with
    placed
    depth
    recalls := Search.recalls_said hears h.config (recalls_of_none rfl) }

end Afoot

/-! ## Moves without a violation -/

/-- From the first run to the second no bad state was entered, and no violation was recorded or announced. -/
structure Harmless (bad : StateId → Bool) (r r' : Run GraphEngine P) : Prop where
  visited : ∀ s ∈ r'.engine.visited, s ∈ r.engine.visited ∨ bad s = false
  violations : r'.violations = r.violations
  crossings : r'.journal.crossings.filter (bad ·.target) = r.journal.crossings.filter (bad ·.target)
  announced : r'.journal.bulletins.filter (·.event = .propertyViolated) =
    r.journal.bulletins.filter (·.event = .propertyViolated)
  unrequested : r.backtrackRequested = false → r'.backtrackRequested = false

namespace Harmless

variable {bad : StateId → Bool} {r' r'' : Run GraphEngine P} {b : Bulletin}

theorem trans (h : Harmless bad r r') (h' : Harmless bad r' r'') : Harmless bad r r'' where
  visited s hs := (h'.visited s hs).elim (h.visited s) .inr
  violations := h'.violations.trans h.violations
  crossings := h'.crossings.trans h.crossings
  announced := h'.announced.trans h.announced
  unrequested := h'.unrequested ∘ h.unrequested

theorem of_eq (engine : r'.engine = r.engine) (violations : r'.violations = r.violations)
    (journal : r'.journal = r.journal)
    (unrequested : r.backtrackRequested = false → r'.backtrackRequested = false) : Harmless bad r r' :=
  ⟨fun _ hs => .inl (engine ▸ hs), violations, by rw [journal], by rw [journal], unrequested⟩

/-- One thing is announced that is no violation. -/
theorem of_bulletin (visited : ∀ s ∈ r'.engine.visited, s ∈ r.engine.visited ∨ bad s = false)
    (violations : r'.violations = r.violations)
    (crossings : r'.journal.crossings.filter (bad ·.target) = r.journal.crossings.filter (bad ·.target))
    (bulletins : r'.journal.bulletins = r.journal.bulletins ++ [b]) (other : b.event ≠ .propertyViolated)
    (unrequested : r.backtrackRequested = false → r'.backtrackRequested = false) : Harmless bad r r' :=
  ⟨visited, violations, crossings, by simp [bulletins, other], unrequested⟩

theorem judged (r : Run GraphEngine P) (isNew : Bool) (depths : DepthTable) :
    Harmless bad r (r.judged isNew depths) :=
  of_eq rfl rfl rfl id

theorem said (r : Run GraphEngine P) {event : Event} (other : event ≠ .propertyViolated) :
    Harmless bad r (r.said A event) :=
  of_bulletin (fun _ => .inl) rfl (by rw [crossings_said]) (bulletins_said event) other id

theorem onward (enters : Enters g r.engine top rest edge) (good : bad edge.target = false) :
    Harmless bad r (r.onward A) := by
  refine of_bulletin ?_ rfl ?_ bulletins_onward nofun id
  · intro s hs
    rw [engine_onward enters] at hs
    rcases (GraphEngine.mem_visited_enter _ _).1 hs with rfl | hs
    · exact .inr good
    · exact .inl hs
  · simp [crossings_onward enters, Crossing.target, good]

theorem halted (stuck : Engine.forward r.engine = (false, r.engine.stall)) :
    Harmless bad r (r.halted A) := by
  refine of_bulletin ?_ rfl (by rw [crossings_halted stuck]) bulletins_halted nofun id
  rw [engine_halted stuck]
  exact fun _ => .inl

theorem retreated (frames : r.engine.frames = top :: below :: rest) :
    Harmless bad r (r.retreated A) := by
  refine of_bulletin ?_ rfl (by rw [crossings_retreated]) bulletins_retreated nofun id
  rw [engine_retreated frames]
  exact fun _ => .inl

theorem resumed {snapshot : Snapshot (Engine.Saved GraphEngine)}
    (visited : (r.resumed A snapshot).engine.visited = r.engine.visited) :
    Harmless bad r (r.resumed A snapshot) :=
  of_bulletin (fun _ hs => .inl (visited ▸ hs)) rfl (by rw [crossings_resumed])
    (bulletins_resumed snapshot) nofun id

end Harmless

/-- All moves of a quiet run that lead to no bad state keep `J`. -/
def Persistent (g : StateGraph) (c : Config) (ps : List (Watched P)) (bad : StateId → Bool)
    (J : Run GraphEngine P → Prop) : Prop :=
  ∀ ⦃r r'⦄, J r → r'.Afoot g c ps → Harmless bad r r' → J r'

/-- What holds of a run without a violation: no state that was visited is bad, nothing is requested, and
    nothing was recorded. -/
structure Underway (g : StateGraph) (c : Config) (ps : List (Watched P)) (bad : StateId → Bool)
    (r : Run GraphEngine P) : Prop extends Afoot g c ps r where
  good : ∀ s ∈ r.engine.visited, bad s = false
  unrequested : r.backtrackRequested = false
  violations : r.violations = []

namespace Underway

variable {bad : StateId → Bool}

theorem good_frames (h : Underway g c ps bad r) : ∀ f ∈ r.engine.frames, bad f.state = false :=
  fun f hf => h.good _ (h.met f hf)

theorem kept {r' : Run GraphEngine P} (h : Underway g c ps bad r) (afoot : r'.Afoot g c ps)
    (harmless : Harmless bad r r') : Underway g c ps bad r' :=
  { afoot with
    good := fun s hs => (harmless.visited s hs).elim (h.good s) id
    unrequested := harmless.unrequested h.unrequested
    violations := harmless.violations.trans h.violations }

theorem persistent : Persistent g c ps bad (Underway g c ps bad) :=
  fun _ _ h => h.kept

end Underway

/-! ## One iteration -/

/-- A depth-first search goes on from a state that is not to be left.  It steps back from any other,
    and ends with the initial one. -/
theorem attains_iterate_graph [Checkable GraphEngine P] {L : Type} [Listener GraphEngine P L] {ls : List L}
    {q : Run GraphEngine P} {limit isNew : Bool} {depths : DepthTable}
    {post : Turn Bool StopReason → Run GraphEngine P → Prop} (hears : A.Hears c ls)
    (wellFormed : r.engine.WellFormed g) (depth : r.depth + 1 = r.engine.frames.length)
    (unprobed : r.probeRequested = false) (matching : r.matching = true) (recalls : r.Recalls)
    (judge : r.judge = .ok (isNew, depths))
    (obeying : ({ r with depths, backtrackRequested := false } : Run GraphEngine P) = q)
    (stay : r.backtrackRequested = false → DepthFirst.leaves limit isNew r.engine = false →
      Attains (Mirrors c ls) (DepthFirst.advance limit) (r.judged isNew depths) post)
    (back : ∀ top below rest, r.engine.frames = top :: below :: rest →
      (r.backtrackRequested || DepthFirst.leaves limit isNew r.engine) = true →
      Attains (Mirrors c ls) (DepthFirst.advance false) (q.retreated A) post)
    (ends : ∀ top, r.engine.frames = [top] →
      (r.backtrackRequested || DepthFirst.leaves limit isNew r.engine) = true →
      post (.stop .exhausted) q.forgetQuery.stepBack.2) :
    Attains (Mirrors c ls) (DepthFirst.iterate limit) r post := by
  subst obeying
  obtain ⟨top, rest, frames⟩ := wellFormed.exists_frames
  refine (Search.yields_pollProbe unprobed).bind_attains ?_
  refine (DepthFirst.yields_mustLeave matching recalls judge).bind_attains ?_
  cases left : r.backtrackRequested || DepthFirst.leaves limit isNew r.engine with
  | false =>
    obtain ⟨unrequested, stays⟩ := Bool.or_eq_false_iff.1 left
    have same : ({ r.judged isNew depths with backtrackRequested := false } : Run GraphEngine P) =
        r.judged isNew depths := by
      rw [← unrequested]
      rfl
    rw [same]
    exact stay unrequested stays
  | true =>
    let asked : Run GraphEngine P := { r.judged isNew depths with backtrackRequested := false }
    refine (Search.yields_backtrack (r := asked)).bind_attains ?_
    cases rest with
    | nil =>
      rw [show (Engine.backtrack asked.engine).1 = false from stepBack_of_root frames]
      exact (Yields.pure _ _).attains (ends top frames left)
    | cons below rest =>
      have deep : r.depth ≠ 0 := by
        rw [frames, List.length_cons, List.length_cons] at depth
        omega
      rw [show (Engine.backtrack asked.engine).1 = true from
        congrArg Prod.fst (GraphEngine.backtrack_of_frames frames)]
      refine (Search.yields_ascend (r := asked.forgetQuery.stepBack.2) deep).bind_attains ?_
      refine (Search.yields_announce hears (recalls_of_none rfl) .stateBacktracked).bind_attains ?_
      exact back top below rest frames left

/-! ## Before the first move -/

/-- A run over `g` whose engine did not move yet. -/
structure AtStart (g : StateGraph) (c : Config) (ps : List (Watched P)) (bad : StateId → Bool)
    (r : Run GraphEngine P) : Prop extends Underway g c ps bad r where
  fresh : GraphEngine.Fresh g r.engine
  crossings : r.journal.crossings = []

namespace AtStart

variable {bad : StateId → Bool}

/-- A run that has nothing but its engine, properties and tallies yet. -/
theorem of_fresh (fresh : GraphEngine.Fresh g r.engine) (good : bad 0 = false)
    (initial : r = {
      engine := r.engine, config := c, memory := r.memory, properties := ps, tallies := r.tallies,
      journal := r.journal })
    (crossings : r.journal.crossings = []) : AtStart g c ps bad r := by
  obtain ⟨choices, frames⟩ := fresh.frames
  have met : ∀ f ∈ r.engine.frames, f.state ∈ r.engine.visited := by
    simp [frames, fresh.visited]
  have spotless : ∀ s ∈ r.engine.visited, bad s = false := by
    simpa [fresh.visited] using good
  rw [initial]
  exact ⟨⟨⟨⟨fresh.wellFormed, fresh.ignored, met⟩, by simp [frames], rfl, rfl, rfl, rfl, rfl,
    recalls_of_none rfl⟩, spotless, rfl, rfl⟩, fresh, crossings⟩

theorem depth_eq (h : AtStart g c ps bad r) : r.depth = 0 := by
  obtain ⟨choices, frames⟩ := h.fresh.frames
  have depth := h.depth
  rw [frames] at depth
  simpa using depth

theorem depth_eq_pathLength (h : AtStart g c ps bad r) : r.depth = Engine.pathLength r.engine := by
  rw [h.depth_eq, Engine.pathLength, show Engine.path r.engine = r.engine.path from rfl, h.fresh.path]
  rfl

theorem said {L : Type} [Listener GraphEngine P L] {ls : List L} (hears : A.Hears c ls)
    (h : AtStart g c ps bad r) (event : Event) : AtStart g c ps bad (r.said A event) :=
  { h.toAfoot.said hears event with
    good := h.good
    unrequested := h.unrequested
    violations := h.violations
    fresh := h.fresh
    crossings := by rw [crossings_said, h.crossings] }

/-- The ledger is opened with the frame of the initial state. -/
theorem ledger (h : AtStart g c ps bad r) {F : List StateId} (outside : 0 ∉ F) :
    Ledger (g.sealed F) r.engine.visited r.journal.crossings r.engine.frames := by
  obtain ⟨choices, frames⟩ := h.fresh.frames
  have proper : Frame.Proper g { state := 0, choices } := (frames ▸ h.wellFormed.stacked).proper
  rw [h.fresh.visited, h.crossings, frames]
  exact .start rfl (proper.sealed outside) rfl

end AtStart

/-! ## After the last move -/

/-- What holds of a run over `g` that went through all of it: the ledger is closed, and no state that
    was visited is bad. -/
structure Exhausted (g : StateGraph) (bad : StateId → Bool) (r : Run GraphEngine P) : Prop where
  ledger : Ledger g r.engine.visited r.journal.crossings []
  good : ∀ s ∈ r.engine.visited, bad s = false
  violations : r.violations = []
  recalls : r.Recalls

/-- What holds of a run over `g` that a violation ended: the violation is the only one, and the path
    to it leads along edges of `g` through states that are not bad to one that is. -/
structure Caught (g : StateGraph) (bad : StateId → Bool) (r : Run GraphEngine P) : Prop where
  violation : ∃ w, r.violations = [{ id := 1, evidence := .live w }]
  route : ∃ ts tr, r.engine.path.transitions = ts ++ [tr] ∧ g.Route (ts ++ [tr]) tr.state ∧
    bad tr.state = true ∧ ∀ t ∈ ts, bad t.state = false
  recalls : r.Recalls

/-- How a run over `g` comes to its end. -/
inductive Stopped (g : StateGraph) (bad : StateId → Bool) : StopReason → Run GraphEngine P → Prop where
  | exhausted {r : Run GraphEngine P} : Exhausted g bad r → Stopped g bad .exhausted r
  | caught {r : Run GraphEngine P} : Caught g bad r → Stopped g bad .propertyViolated r

theorem Stopped.recalls {bad : StateId → Bool} {reason : StopReason} (h : Stopped g bad reason r) :
    r.Recalls := by
  cases h with
  | exhausted h => exact h.recalls
  | caught h => exact h.recalls

/-- A step into a bad state ends the run with its violation. -/
theorem Underway.caught [Property P] {bad : StateId → Bool} (h : Underway g c ps bad r)
    (single : c.continueOnViolation = false) (enters : Enters g r.engine top rest edge)
    (violated : bad edge.target = true) {q : Run GraphEngine P} {ps' : List (Watched P)}
    {w : Watched P} (engine : q.engine = (r.broken ps' w).engine)
    (violations : q.violations = (r.broken ps' w).violations) (recalls : q.Recalls) :
    Caught g bad q := by
  have entered : (r.broken ps' w).engine = (Engine.forward r.engine).2 := rfl
  rw [entered, enters.forward] at engine
  refine ⟨⟨w, ?_⟩, ⟨r.engine.path.transitions, edge.transition, ?_, ?_, violated, ?_⟩, recalls⟩
  · rw [violations, violations_broken (h.config ▸ single), h.violations]
    rfl
  · rw [engine]
    simp
  · exact (h.wellFormed.stacked.route enters.frames).outgoing enters.outgoing
  · intro t ht
    obtain ⟨f, hf, state⟩ := h.wellFormed.stacked.frame_of_mem (List.mem_reverse.1 ht)
    rw [← state]
    exact h.good_frames f hf

end Run

end Statewalk
