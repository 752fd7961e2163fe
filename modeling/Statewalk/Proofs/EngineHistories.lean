import Statewalk.Proofs.GraphRuns

/-! # Histories of a graph engine

What holds of a graph engine after any sequence of its operations, where snapshots taken on the way
may be restored in any order and more than once.

* `GraphEngine.Bench` — an engine with the snapshots taken of it, and what a `Command` does to both.
* `GraphEngine.Bench.Sound` — the invariant: the engine and its snapshots hold stacks of choice
  points that fit the graph, over visited states only.
* `GraphEngine.Representation` — the same of an engine alone, read off its frames from the root up.
* `GraphEngine.Resembles` — two engines at the same point of the tree of choices, which differ in
  what they have visited.
-/

namespace Statewalk

/-! ## Stacks from the root up -/

namespace Stacked

variable {g : StateGraph} {f above : Frame} {fs : List Frame} {ts : List Transition}

theorem proper_of_mem (h : Stacked g fs ts) (mem : f ∈ fs) : f.Proper g := by
  induction h with
  | root _ proper =>
    obtain rfl := List.mem_singleton.1 mem
    exact proper
  | push _ _ _ _ _ proper ih =>
    rcases List.mem_cons.1 mem with rfl | below
    · exact proper
    · exact ih below

theorem reachable_of_mem (h : Stacked g fs ts) (mem : f ∈ fs) : g.Reachable f.state := by
  induction h with
  | root root proper =>
    obtain rfl := List.mem_singleton.1 mem
    exact ((Stacked.root root proper).route rfl).reachable
  | push below tried choice edge target proper ih =>
    rcases List.mem_cons.1 mem with rfl | mem
    · exact ((below.push tried choice edge target proper).route rfl).reachable
    · exact ih mem

theorem root_of_reverse (h : Stacked g fs ts) : ∃ f rest, fs.reverse = f :: rest ∧ f.state = 0 := by
  induction h with
  | @root f root _ => exact ⟨f, [], rfl, root⟩
  | @push _ top _ _ _ _ _ _ _ _ _ _ ih =>
    obtain ⟨f, rest, reverse, state⟩ := ih
    exact ⟨f, rest ++ [top], by rw [List.reverse_cons, reverse, List.cons_append], state⟩

/-- Each frame below the top one took the edge of its last choice to the frame above it. -/
theorem edge_of_reverse (h : Stacked g fs ts) {i : Nat} (lower : fs.reverse[i]? = some f)
    (upper : fs.reverse[i + 1]? = some above) :
    ∃ n edge, 1 ≤ f.tried ∧ f.choices[f.tried - 1]? = some n ∧ (g.edges f.state)[n]? = some edge ∧
      ts.reverse[i]? = some edge.transition ∧ above.state = edge.target := by
  induction h with
  | root _ _ => simp at upper
  | @push f' top fs' ts' n edge below tried choice hedge target _ ih =>
    have length := below.length_eq
    rw [List.reverse_cons] at lower upper ⊢
    have bound : i + 1 < fs'.length + 2 := by
      simpa using (List.getElem?_eq_some_iff.1 upper).1
    have inside : i < (f' :: fs').reverse.length := by simp; omega
    rw [List.getElem?_append_left inside] at lower
    rcases Nat.lt_or_ge (i + 1) (f' :: fs').reverse.length with lt | ge
    · -- Both frames are part of the stack below.
      rw [List.getElem?_append_left lt] at upper
      obtain ⟨n, edge, tried, choice, hedge, transition, state⟩ := ih lower upper
      refine ⟨n, edge, tried, choice, hedge, ?_, state⟩
      rw [List.getElem?_append_left (List.getElem?_eq_some_iff.1 transition).1]
      exact transition
    · -- The new frame stands on the one that took the edge.
      have last : i = fs'.length := by simp at ge; omega
      subst last
      have top_eq : top = above := by simpa using upper
      have f_eq : f' = f := by simpa using lower
      subst top_eq f_eq
      refine ⟨n, edge, tried, choice, hedge, ?_, target⟩
      have place : fs'.length = ts'.reverse.length := by simpa using length
      rw [place]
      simp

end Stacked

namespace GraphEngine

variable {g : StateGraph} {e : GraphEngine}

/-! ## Operations in sequence -/

/-- A step of an engine along the tree of choices. -/
inductive Step where
  | forward
  | backtrack
deriving DecidableEq, Repr

/-- Takes a step. -/
def Step.take : Step → GraphEngine → Bool × GraphEngine
  | .forward => GraphEngine.forward
  | .backtrack => GraphEngine.backtrack

/-- An operation of an engine. -/
inductive Command where
  | step (step : Step)
  | ignore (mark : Bool)
  /-- Takes a snapshot. -/
  | snapshot
  /-- Restores the snapshot with a number, in the order in which they were taken. -/
  | restore (number : Nat)
  | resetChoice
deriving DecidableEq, Repr

/-- An engine and the snapshots taken of it, the first one first. -/
structure Bench where
  engine : GraphEngine
  snapshots : List (Snapshot Saved) := []

namespace Bench

/-- Carries out an operation.  A snapshot that was not taken is not restored. -/
def perform (b : Bench) : Command → Bench
  | .step step => { b with engine := (step.take b.engine).2 }
  | .ignore mark => { b with engine := b.engine.ignore mark }
  | .snapshot => { b with snapshots := b.snapshots ++ [b.engine.snapshot] }
  | .restore number =>
    match b.snapshots[number]? with
    | some s => { b with engine := (b.engine.restore s).2 }
    | none => b
  | .resetChoice => { b with engine := b.engine.resetChoice }

/-- Carries out operations one after the other. -/
def after (b : Bench) (history : List Command) : Bench :=
  history.foldl perform b

/-- The states that the engine is in before the first operation and after each of them. -/
def stops (b : Bench) : List Command → List StateId
  | [] => [b.engine.current]
  | c :: cs => b.engine.current :: (b.perform c).stops cs

end Bench

/-! ## What operations keep -/

/-- The choice points and the path of a snapshot fit the graph and go through known states. -/
structure Saved.Sound (g : StateGraph) (visited : List StateId) (saved : Saved) : Prop where
  stacked : Stacked g saved.frames saved.path.recent
  application : saved.path.application = g.name
  met : ∀ f ∈ saved.frames, f.state ∈ visited

theorem Saved.Sound.mono {visited visited' : List StateId} {saved : Saved}
    (h : saved.Sound g visited) (grows : visited ⊆ visited') : saved.Sound g visited' :=
  { h with met := fun f hf => grows (h.met f hf) }

/-- The engine fits the graph and has visited the states of its path. -/
structure Sound (g : StateGraph) (e : GraphEngine) : Prop where
  wellFormed : WellFormed g e
  met : ∀ f ∈ e.frames, f.state ∈ e.visited

theorem Fresh.sound (h : Fresh g e) : Sound g e := by
  obtain ⟨choices, frames⟩ := h.frames
  exact ⟨h.wellFormed, by simp [frames, h.visited]⟩

namespace Sound

theorem current_mem (h : Sound g e) : e.current ∈ e.visited := by
  obtain ⟨top, rest, frames⟩ := h.wellFormed.exists_frames
  rw [current_of_frames frames]
  exact h.met top (frames ▸ List.mem_cons_self)

theorem saved (h : Sound g e) : Saved.Sound g e.visited { frames := e.frames, path := e.path } :=
  ⟨h.wellFormed.stacked, h.wellFormed.application, h.met⟩

theorem forward (h : Sound g e) : Sound g e.forward.2 := by
  obtain ⟨top, rest, frames⟩ := h.wellFormed.exists_frames
  rcases h.wellFormed.forward_cases frames with ⟨edge, enters⟩ | ⟨-, stuck⟩
  · have forward : e.forward = _ := enters.forward
    have met : ∀ f ∈ top :: rest, f.state ∈ e.visited := frames ▸ h.met
    rw [forward]
    refine ⟨enters.wellFormed, ?_⟩
    simp only [frames_enter, mem_visited_enter, List.forall_mem_cons, state_entered]
    exact ⟨.inl trivial, .inr (met top List.mem_cons_self),
      fun f hf => .inr (met f (List.mem_cons_of_mem _ hf))⟩
  · have forward : e.forward = _ := stuck
    rw [forward]
    exact ⟨h.wellFormed.stall, h.met⟩

theorem backtrack (h : Sound g e) : Sound g e.backtrack.2 := by
  obtain ⟨top, rest, frames⟩ := h.wellFormed.exists_frames
  cases rest with
  | nil => rwa [backtrack_root frames]
  | cons below rest =>
    rw [backtrack_of_frames frames]
    refine ⟨h.wellFormed.backtrack frames, fun f hf => h.met f ?_⟩
    rw [frames]
    exact List.mem_cons_of_mem _ hf

theorem take (h : Sound g e) (step : Step) : Sound g (step.take e).2 := by
  cases step with
  | forward => exact h.forward
  | backtrack => exact h.backtrack

theorem ignore (h : Sound g e) (mark : Bool) : Sound g (e.ignore mark) :=
  ⟨⟨h.wellFormed.graph, h.wellFormed.stacked, h.wellFormed.application, h.wellFormed.threads⟩, h.met⟩

theorem restore (h : Sound g e) {s : Snapshot Saved} {saved : Saved} (payload : s.payload = some saved)
    (sound : saved.Sound g e.visited) : Sound g (e.restore s).2 := by
  simp only [GraphEngine.restore, payload]
  refine ⟨⟨h.wellFormed.graph, sound.stacked, sound.application, ?_⟩, sound.met⟩
  rw [← h.wellFormed.graph]
  rfl

theorem resetChoice (h : Sound g e) : Sound g e.resetChoice := by
  obtain ⟨top, rest, frames⟩ := h.wellFormed.exists_frames
  have stacked : Stacked g (top :: rest) e.path.recent := frames ▸ h.wellFormed.stacked
  have met : ∀ f ∈ top :: rest, f.state ∈ e.visited := frames ▸ h.met
  -- The choices of the current frame are put in a new order, and its state stays.
  have proper : Frame.Proper g { top with choices := (arrange top.choices e.random).1, tried := 0 } :=
    ⟨(arrange_perm _ _).trans stacked.proper.perm, Nat.zero_le _⟩
  have threads := h.wellFormed.threads
  rw [current_of_frames frames] at threads
  simp only [GraphEngine.resetChoice, frames]
  refine ⟨⟨h.wellFormed.graph, stacked.replace_top rfl proper, h.wellFormed.application, threads⟩, ?_⟩
  simpa only [List.forall_mem_cons] using met

end Sound

theorem visited_forward (h : WellFormed g e) : e.visited ⊆ e.forward.2.visited := by
  obtain ⟨top, rest, frames⟩ := h.exists_frames
  rcases h.forward_cases frames with ⟨edge, enters⟩ | ⟨-, stuck⟩
  · have forward : e.forward = _ := enters.forward
    rw [forward]
    exact fun s hs => (mem_visited_enter _ _).2 (.inr hs)
  · have forward : e.forward = _ := stuck
    rw [forward]
    exact fun s hs => hs

@[simp] theorem visited_backtrack (e : GraphEngine) : e.backtrack.2.visited = e.visited := by
  unfold backtrack
  split <;> rfl

@[simp] theorem visited_restore (s : Snapshot Saved) (e : GraphEngine) :
    (e.restore s).2.visited = e.visited := by
  unfold restore
  split <;> rfl

@[simp] theorem visited_resetChoice (e : GraphEngine) : e.resetChoice.visited = e.visited := by
  unfold resetChoice
  split <;> rfl

theorem visited_take (h : WellFormed g e) (step : Step) : e.visited ⊆ (step.take e).2.visited := by
  cases step with
  | forward => exact visited_forward h
  | backtrack => simp [Step.take]

namespace Bench

variable {b : Bench}

/-- The engine and all snapshots fit the graph, and what they went through was visited. -/
structure Sound (g : StateGraph) (b : Bench) : Prop where
  engine : b.engine.Sound g
  snapshots : ∀ s ∈ b.snapshots, ∃ saved, s.payload = some saved ∧ saved.Sound g b.engine.visited

namespace Sound

theorem visited_perform (h : Sound g b) (c : Command) :
    b.engine.visited ⊆ (b.perform c).engine.visited := by
  cases c with
  | step step => exact visited_take h.engine.wellFormed step
  | restore number =>
    simp only [perform]
    split <;> simp
  | ignore _ | snapshot => exact fun s hs => hs
  | resetChoice => simp [perform]

theorem perform (h : Sound g b) (c : Command) : Sound g (b.perform c) := by
  have grows := h.visited_perform c
  have kept : ∀ s ∈ b.snapshots, ∃ saved, s.payload = some saved ∧
      saved.Sound g (b.perform c).engine.visited := by
    intro s hs
    obtain ⟨saved, payload, sound⟩ := h.snapshots s hs
    exact ⟨saved, payload, sound.mono grows⟩
  cases c with
  | step step => exact ⟨h.engine.take step, kept⟩
  | ignore mark => exact ⟨h.engine.ignore mark, kept⟩
  | resetChoice => exact ⟨h.engine.resetChoice, kept⟩
  | snapshot =>
    refine ⟨h.engine, fun s hs => ?_⟩
    rcases List.mem_append.1 hs with old | new
    · exact kept s old
    · obtain rfl := List.mem_singleton.1 new
      exact ⟨_, rfl, h.engine.saved⟩
  | restore number =>
    simp only [Bench.perform] at kept ⊢
    split
    · rename_i s found
      simp only [found] at kept
      obtain ⟨saved, payload, sound⟩ := h.snapshots s (List.mem_of_getElem? found)
      exact ⟨h.engine.restore payload sound, kept⟩
    · exact h

/-- The invariant holds after every sequence of operations. -/
theorem after (h : Sound g b) (history : List Command) : Sound g (b.after history) := by
  induction history generalizing b with
  | nil => exact h
  | cons c history ih => exact ih (h.perform c)

theorem visited_after (h : Sound g b) (history : List Command) :
    b.engine.visited ⊆ (b.after history).engine.visited := by
  induction history generalizing b with
  | nil => exact fun s hs => hs
  | cons c history ih => exact fun s hs => ih (h.perform c) (h.visited_perform c hs)

/-- An engine does not forget a state that it was in. -/
theorem stops_visited (h : Sound g b) (history : List Command) :
    b.stops history ⊆ (b.after history).engine.visited := by
  induction history generalizing b with
  | nil => simpa [stops, Bench.after] using h.engine.current_mem
  | cons c history ih =>
    simp only [stops, List.cons_subset]
    exact ⟨h.visited_after (c :: history) h.engine.current_mem, ih (h.perform c)⟩

end Sound

theorem sound_of_fresh (h : Fresh g e) : Sound g { engine := e } :=
  ⟨h.sound, fun _ hs => absurd hs List.not_mem_nil⟩

end Bench

/-! ## The representation of an engine -/

/-- What the parts of an engine over `g` have to do with each other.  Frames are numbered from the
    root, as the transitions of the path are. -/
structure Representation (g : StateGraph) (e : GraphEngine) : Prop where
  graph : e.graph = g
  root : ∃ f rest, e.frames.reverse = f :: rest ∧ f.state = 0
  inside : ∀ f ∈ e.frames, f.state < g.size
  /-- A frame has the edges of its state in some order; that of an end state has none. -/
  choices : ∀ f ∈ e.frames,
    f.choices.Perm (if g.isEnd f.state then [] else List.range (g.edges f.state).length)
  tried : ∀ f ∈ e.frames, f.tried ≤ f.choices.length
  pathLength : Engine.pathLength e + 1 = e.frames.length
  /-- A frame with another one above it took the edge of its last choice, and the path has that. -/
  taken : ∀ i f above, e.frames.reverse[i]? = some f → e.frames.reverse[i + 1]? = some above →
    g.isEnd f.state = false ∧ 1 ≤ f.tried ∧ ∃ n edge, f.choices[f.tried - 1]? = some n ∧
      (g.edges f.state)[n]? = some edge ∧ e.path.transitions[i]? = some edge.transition ∧
      above.state = edge.target
  threads : e.threads.threads = g.threadsAt (Engine.stateId e)
  /-- There is a current frame, its next choice is an edge if it has one left, and then that edge
      is taken. -/
  forward : ∃ top rest, e.frames = top :: rest ∧ Engine.stateId e = top.state ∧
    (∀ n, top.choices[top.tried]? = some n → ∃ edge, (g.edges top.state)[n]? = some edge ∧
      (Engine.forward e).1 = true ∧ Engine.stateId (Engine.forward e).2 = edge.target) ∧
    (top.choices[top.tried]? = none → Engine.forward e = (false, e.stall))

theorem WellFormed.representation (h : WellFormed g e) (valid : g.validate = .ok ()) :
    Representation g e := by
  obtain ⟨top, rest, frames⟩ := h.exists_frames
  have current : Engine.stateId e = top.state := current_of_frames frames
  refine
    { graph := h.graph
      root := h.stacked.root_of_reverse
      inside := fun f hf => (h.stacked.reachable_of_mem hf).lt_size valid
      choices := fun f hf => (h.stacked.proper_of_mem hf).perm
      tried := fun f hf => (h.stacked.proper_of_mem hf).tried_le
      pathLength := h.frames_length.symm
      taken := ?_
      threads := congrArg ThreadList.threads h.threads
      forward := ⟨top, rest, frames, current, ?_, ?_⟩ }
  · intro i f above lower upper
    obtain ⟨n, edge, tried, choice, hedge, transition, state⟩ := h.stacked.edge_of_reverse lower upper
    have mem : f ∈ e.frames := List.mem_reverse.1 (List.mem_of_getElem? lower)
    have notEnd := ((h.stacked.proper_of_mem mem).edge_of_choice (List.mem_of_getElem? choice)).1
    exact ⟨notEnd, tried, n, edge, choice, hedge, transition, state⟩
  · intro n choice
    obtain ⟨n', edge, choice', hedge, -, -, forward⟩ :=
      h.forward_of_tried_lt frames (List.getElem?_eq_some_iff.1 choice).1
    obtain rfl : n = n' := Option.some.inj (choice.symm.trans choice')
    refine ⟨edge, hedge, ?_⟩
    show e.forward.1 = true ∧ e.forward.2.current = edge.target
    rw [forward]
    exact ⟨rfl, rfl⟩
  · intro none
    have proper : top.Proper g := h.stacked.proper_of_mem (frames ▸ List.mem_cons_self)
    have done : top.tried = top.choices.length :=
      Nat.le_antisymm proper.tried_le (List.getElem?_eq_none_iff.1 none)
    exact forward_of_tried_eq frames done

theorem ofGraph_eq_ok (made : ofGraph g = .ok e) : g.validate = .ok () ∧ e.random = none := by
  obtain ⟨valid, rfl⟩ := ofGraph_eq_ok_iff.1 made
  exact ⟨valid, rfl⟩

/-- After every sequence of operations the frames of an engine, its path and its threads represent
    one walk through the graph, whether or not the edges are tried in a random order.  So a step
    forward never meets a missing frame or a choice without an edge. -/
theorem histories_keep_representation {e₀ : GraphEngine} (made : ofGraph g = .ok e₀)
    (order : e = e₀ ∨ ∃ seed, e = e₀.withRandomChoices seed) (history : List Command) :
    Representation g (Bench.after { engine := e } history).engine := by
  have fresh : Fresh g e := by
    rcases order with rfl | ⟨seed, rfl⟩
    · exact fresh_ofGraph made
    · exact (fresh_ofGraph made).withRandomChoices seed
  have sound := (Bench.sound_of_fresh fresh).after history
  exact sound.engine.wellFormed.representation (ofGraph_eq_ok made).1

theorem tangle_histories_keep_representation : ∃ e, ofGraph .tangle = .ok e ∧
    ∀ seed, Representation .tangle (Bench.after { engine := e.withRandomChoices seed }
      [.step .forward, .snapshot, .step .forward, .ignore true, .step .backtrack, .resetChoice,
        .step .forward, .restore 0, .step .forward]).engine := by
  obtain ⟨e, made⟩ : ∃ e, ofGraph .tangle = .ok e := ⟨_, rfl⟩
  exact ⟨e, made, fun seed => histories_keep_representation made (.inr ⟨seed, rfl⟩) _⟩

/-! ## The way on from a snapshot -/

/-- What an engine shows of where it is, apart from whether that is new. -/
structure View where
  state : StateId
  isEnd : Bool
  path : Path
  pathLength : Nat
  threads : ThreadList
deriving DecidableEq, Repr

/-- What the engine shows now. -/
def view (e : GraphEngine) : View :=
  { state := Engine.stateId e
    isEnd := Engine.isEnd e
    path := Engine.path e
    pathLength := Engine.pathLength e
    threads := Engine.threads e }

/-- The results of steps, each with what the engine shows after it. -/
def play : List Step → GraphEngine → List (Bool × View)
  | [], _ => []
  | step :: steps, e => ((step.take e).1, (step.take e).2.view) :: play steps (step.take e).2

/-- The engine after steps. -/
def walked (steps : List Step) (e : GraphEngine) : GraphEngine :=
  steps.foldl (fun e step => (step.take e).2) e

/-- Two engines at the same point of the tree of choices.  Both try edges in declaration order from
    there on, so they go the same ways. -/
structure Resembles (e e' : GraphEngine) : Prop where
  graph : e.graph = e'.graph
  frames : e.frames = e'.frames
  path : e.path = e'.path
  threads : e.threads = e'.threads
  declared : e.random = none ∧ e'.random = none

namespace Resembles

variable {e' : GraphEngine}

theorem current (h : Resembles e e') : e.current = e'.current := by
  simp only [GraphEngine.current, h.frames]

theorem view (h : Resembles e e') : e.view = e'.view := by
  simp only [GraphEngine.view, Engine.stateId, Engine.isEnd, Engine.path, Engine.pathLength,
    Engine.threads, h.current, h.graph, h.path, h.threads]

theorem reframe (h : Resembles e e') (frames : List Frame) :
    Resembles { e with frames } { e' with frames } :=
  ⟨h.graph, rfl, h.path, h.threads, h.declared⟩

theorem stall (h : Resembles e e') : Resembles e.stall e'.stall :=
  ⟨h.graph, h.frames, h.path, h.threads, h.declared⟩

theorem syncThreads (h : Resembles e e') : Resembles e.syncThreads e'.syncThreads := by
  refine ⟨h.graph, h.frames, h.path, ?_, h.declared⟩
  simp only [GraphEngine.syncThreads, h.current, h.graph]

theorem enter (h : Resembles e e') (edge : Edge) :
    Resembles (GraphEngine.enter edge e) (GraphEngine.enter edge e') := by
  obtain ⟨random, random'⟩ := h.declared
  refine syncThreads ⟨h.graph, ?_, ?_, h.threads, ?_⟩ <;>
    simp [random, random', h.graph, h.frames, h.path]

theorem forward (h : Resembles e e') :
    e.forward.1 = e'.forward.1 ∧ Resembles e.forward.2 e'.forward.2 := by
  have edges : e.graph.edges = e'.graph.edges := by rw [h.graph]
  simp only [GraphEngine.forward, h.frames, edges]
  split
  · exact ⟨rfl, h⟩
  · split
    · exact ⟨rfl, h.stall⟩
    · split
      · exact ⟨rfl, (h.reframe _).stall⟩
      · exact ⟨rfl, (h.reframe _).enter _⟩

theorem backtrack (h : Resembles e e') :
    e.backtrack.1 = e'.backtrack.1 ∧ Resembles e.backtrack.2 e'.backtrack.2 := by
  simp only [GraphEngine.backtrack, h.frames]
  split
  · exact ⟨rfl, syncThreads ⟨h.graph, rfl, congrArg Path.pop h.path, h.threads, h.declared⟩⟩
  · exact ⟨rfl, h⟩

theorem take (h : Resembles e e') (step : Step) :
    (step.take e).1 = (step.take e').1 ∧ Resembles (step.take e).2 (step.take e').2 := by
  cases step with
  | forward => exact h.forward
  | backtrack => exact h.backtrack

theorem play (h : Resembles e e') (steps : List Step) :
    GraphEngine.play steps e = GraphEngine.play steps e' := by
  induction steps generalizing e e' with
  | nil => rfl
  | cons step steps ih =>
    obtain ⟨result, later⟩ := h.take step
    simp only [GraphEngine.play, result, later.view, ih later]

end Resembles

theorem Resembles.rfl_of_random (h : e.random = none) : Resembles e e :=
  ⟨rfl, rfl, rfl, rfl, h, h⟩

theorem resembles_restore {e' : GraphEngine} (h : WellFormed g e) (h' : WellFormed g e')
    (random : e.random = none) (random' : e'.random = none) :
    Resembles (e'.restore e.snapshot).2 e := by
  have graph : e'.graph = e.graph := h'.graph.trans h.graph.symm
  refine ⟨graph, rfl, rfl, ?_, random', random⟩
  rw [h.threads, ← h.graph, ← graph]
  rfl

/-- No operation lets an engine that tries edges in declaration order choose at random. -/
theorem Bench.random_perform {b : Bench} (h : b.engine.random = none) (c : Command) :
    (b.perform c).engine.random = none := by
  cases c with
  | step step => exact ((Resembles.rfl_of_random h).take step).2.declared.1
  | ignore _ | snapshot => exact h
  | restore number =>
    simp only [perform, restore]
    split
    · split <;> exact h
    · exact h
  | resetChoice =>
    simp only [perform, resetChoice, h]
    split
    · exact h
    · rfl

theorem Bench.random_after {b : Bench} (h : b.engine.random = none) (history : List Command) :
    (b.after history).engine.random = none := by
  induction history generalizing b with
  | nil => exact h
  | cons c history ih => exact ih (random_perform h c)

/-- An engine that was somewhere already does not say that it is new there. -/
theorem not_mem_of_isNew_take {known : List StateId} (h : WellFormed g e) (grows : known ⊆ e.visited)
    (ih : e.isNew = true → e.current ∉ known) (step : Step)
    (new : (step.take e).2.isNew = true) : (step.take e).2.current ∉ known := by
  obtain ⟨top, rest, frames⟩ := h.exists_frames
  cases step with
  | forward =>
    simp only [Step.take] at new ⊢
    rcases h.forward_cases frames with ⟨edge, enters⟩ | ⟨-, stuck⟩
    · have forward : e.forward = _ := enters.forward
      rw [forward] at new ⊢
      simp only [isNew_enter, decide_eq_true_eq] at new
      exact fun mem => new (grows mem)
    · have forward : e.forward = _ := stuck
      rw [forward] at new
      cases new
  | backtrack =>
    simp only [Step.take] at new ⊢
    cases rest with
    | nil =>
      rw [backtrack_root frames] at new ⊢
      exact ih new
    | cons below rest =>
      rw [backtrack_of_frames frames] at new
      cases new

theorem not_mem_of_isNew_walked {known : List StateId} (h : Sound g e) (grows : known ⊆ e.visited)
    (start : e.isNew = true → e.current ∉ known) (steps : List Step)
    (new : (walked steps e).isNew = true) : (walked steps e).current ∉ known := by
  induction steps generalizing e with
  | nil => exact start new
  | cons step steps ih =>
    refine ih (h.take step) ?_ ?_ new
    · exact fun s hs => visited_take h.wellFormed step (grows hs)
    · exact not_mem_of_isNew_take h.wellFormed grows start step

/-- An engine that returns to a snapshot is back at the same point of the tree of choices, whatever
    it did since, other snapshots that it returned to included.  It goes on as it would have gone on
    then and has forgotten nothing of what it visited or ignored: only a state that it never was in
    is new to it. -/
theorem restored_snapshot_resumes (made : ofGraph g = .ok e) (before later : List Command) :
    let taken := Bench.after { engine := e } before
    let left := (taken.perform .snapshot).after later
    let restored := left.engine.restore taken.engine.snapshot
    restored.1 = true ∧ restored.2.visited = left.engine.visited ∧
      restored.2.ignored = left.engine.ignored ∧ restored.2.isNew = false ∧
      restored.2.occurred = false ∧ restored.2.view = taken.engine.view ∧
      ∀ steps, play steps restored.2 = play steps taken.engine ∧
        ((walked steps restored.2).isNew = true →
          (walked steps restored.2).current ∉ Bench.stops { engine := e } before ∧
          (walked steps restored.2).current ∉ (taken.perform .snapshot).stops later) := by
  intro taken left restored
  have fresh := fresh_ofGraph made
  have random := (ofGraph_eq_ok made).2
  have soundTaken : taken.Sound g := (Bench.sound_of_fresh fresh).after before
  have soundLeft : left.Sound g := (soundTaken.perform .snapshot).after later
  have resembles : Resembles restored.2 taken.engine :=
    resembles_restore soundTaken.engine.wellFormed soundLeft.engine.wellFormed
      (Bench.random_after random before)
      (Bench.random_after (Bench.random_perform (Bench.random_after random before) .snapshot) later)
  have sound : restored.2.Sound g := soundLeft.engine.restore rfl
    (soundTaken.engine.saved.mono ((soundTaken.perform .snapshot).visited_after later))
  refine ⟨rfl, rfl, rfl, rfl, rfl, resembles.view, fun steps => ⟨resembles.play steps, fun new => ?_⟩⟩
  have unknown : ∀ known, known ⊆ left.engine.visited → (walked steps restored.2).current ∉ known :=
    fun known grows => not_mem_of_isNew_walked sound grows (fun h => Bool.noConfusion h) steps new
  have first : Bench.stops { engine := e } before ⊆ taken.engine.visited :=
    (Bench.sound_of_fresh fresh).stops_visited before
  refine ⟨unknown _ fun s hs => ?_, unknown _ ((soundTaken.perform .snapshot).stops_visited later)⟩
  exact (soundTaken.perform .snapshot).visited_after later (first hs)

theorem tangle_snapshot_resumes : ∃ e, ofGraph .tangle = .ok e ∧
    let taken := Bench.after { engine := e } [.snapshot, .step .forward, .step .forward]
    let left := (taken.perform .snapshot).after
      [.ignore true, .step .forward, .resetChoice, .restore 0, .step .backtrack, .step .forward]
    let restored := left.engine.restore taken.engine.snapshot
    restored.1 = true ∧ ∀ steps, play steps restored.2 = play steps taken.engine := by
  obtain ⟨e, made⟩ : ∃ e, ofGraph .tangle = .ok e := ⟨_, rfl⟩
  obtain ⟨result, -, -, -, -, -, onward⟩ := restored_snapshot_resumes made
    [.snapshot, .step .forward, .step .forward]
    [.ignore true, .step .forward, .resetChoice, .restore 0, .step .backtrack, .step .forward]
  exact ⟨e, made, result, fun steps => (onward steps).1⟩

/-! ## Snapshots of other engines

A snapshot does not tell which engine took it: an engine refuses only what holds no stack of choice points. -/

/-- An engine takes over the stack of any other one.  It is sure to be in a state of its own graph afterwards if
    the other engine explores the same graph. -/
theorem restore_takes_any_stack {g' : StateGraph} {e' : GraphEngine} (made : ofGraph g = .ok e)
    (made' : ofGraph g' = .ok e') (history history' : List Command) :
    let own := (Bench.after { engine := e } history).engine
    let other := (Bench.after { engine := e' } history').engine
    let restored := own.restore other.snapshot
    restored.1 = true ∧ restored.2.frames = other.frames ∧ restored.2.path = other.path ∧
      restored.2.visited = own.visited ∧ (g' = g → restored.2.WellFormed g) ∧
      ∀ n, own.restore { pathLength := n, payload := none } = (false, own) := by
  intro own other restored
  have sound : own.Sound g := ((Bench.sound_of_fresh (fresh_ofGraph made)).after history).engine
  have sound' : other.Sound g' := ((Bench.sound_of_fresh (fresh_ofGraph made')).after history').engine
  refine ⟨rfl, rfl, rfl, rfl, ?_, fun _ => rfl⟩
  rintro rfl
  refine ⟨sound.wellFormed.graph, sound'.wellFormed.stacked, sound'.wellFormed.application, ?_⟩
  rw [← sound.wellFormed.graph]
  rfl

/-- An engine whose graph has the initial state only is put into the next state of another graph. -/
theorem foreign_snapshot_accepted : ∃ e e' : GraphEngine,
    ofGraph { name := "point", states := [{}] } = .ok e ∧ ofGraph .shortcut = .ok e' ∧
      let restored := e.restore e'.forward.2.snapshot
      restored.1 = true ∧ e.graph.size ≤ restored.2.current := by
  refine ⟨_, _, rfl, rfl, ?_⟩
  decide +kernel

end GraphEngine

end Statewalk
