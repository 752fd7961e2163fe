import Statewalk.Proofs.DepthFirstRuns

/-! # Recursive depth-first tours

A depth-first search without properties that takes the edges of each state as they are declared does
what a recursive search does.

* `StateGraph.Tour` — what a recursive search tells while it goes along edges of a state.
* `Returns`, `Resumes` — what the frames of a stack still have to tell, one tour for each frame.
* `DepthFirst.Finished.itinerary` — what a search told at its end is what the recursive one tells.  Each
  move tells the first part of what was left to tell, so that the two agree from the start.
-/

namespace Statewalk

/-- An event, with the depth and the state of the search when it happened. -/
structure Note where
  event : Event
  depth : Nat
  state : StateId
deriving DecidableEq, Repr

/-- What an announcement says of the event and of the place of the search. -/
def Bulletin.note (b : Bulletin) : Note :=
  { event := b.event, depth := b.depth, state := b.state }

/-- What was announced, in order. -/
def Journal.notes (j : Journal) : List Note :=
  j.bulletins.map Bulletin.note

theorem Run.notes_of_bulletins {E P : Type} [Engine E] {r : Run E P} {event : Event} {n d : Nat}
    {s : StateId} {j j' : Journal} (h : j'.bulletins = j.bulletins ++ [r.bulletin n event])
    (depth : r.depth = d) (state : Engine.stateId r.engine = s) :
    j'.notes = j.notes ++ [⟨event, d, s⟩] := by
  subst depth state
  rw [Journal.notes, h, List.map_append]
  rfl

/-! ## Tours -/

namespace StateGraph

variable {g : StateGraph} {d : Nat} {s : StateId} {ts seen seen' seen'' : List StateId}
  {log log' : List Note}

/-- The targets of the edges of a state, as they are declared. -/
def targets (g : StateGraph) (s : StateId) : List StateId :=
  (g.edges s).map Edge.target

/-- What a recursive depth-first search tells when it stands at a state with some depth and goes along
    edges to the given targets, with the states that were seen before and those seen afterwards. -/
inductive Tour (g : StateGraph) :
    Nat → StateId → List StateId → List StateId → List Note → List StateId → Prop where
  /-- After the last edge the state is done with. -/
  | processed {d : Nat} {s : StateId} {seen : List StateId} :
      Tour g d s [] seen [⟨.stateProcessed, d, s⟩] seen
  /-- A state that was seen before or is an end state is entered and left. -/
  | passed {d : Nat} {s t : StateId} {ts seen seen' : List StateId} {log : List Note} :
      t ∈ seen ∨ g.isEnd t = true → Tour g d s ts (seen.insert t) log seen' →
      Tour g d s (t :: ts) seen (⟨.stateAdvanced, d + 1, t⟩ :: ⟨.stateBacktracked, d, s⟩ :: log) seen'
  /-- Any other state is visited: its own edges come before the ones that are left here. -/
  | visited {d : Nat} {s t : StateId} {ts seen seen' seen'' : List StateId} {inner log : List Note} :
      t ∉ seen → g.isEnd t = false → Tour g (d + 1) t (g.targets t) (seen.insert t) inner seen' →
      Tour g d s ts seen' log seen'' →
      Tour g d s (t :: ts) seen
        (⟨.stateAdvanced, d + 1, t⟩ :: (inner ++ ⟨.stateBacktracked, d, s⟩ :: log)) seen''

theorem Tour.unique (h : Tour g d s ts seen log seen') (h' : Tour g d s ts seen log' seen'') :
    log = log' ∧ seen' = seen'' := by
  induction h generalizing log' seen'' with
  | processed =>
    cases h'
    exact ⟨rfl, rfl⟩
  | passed known _ ih =>
    cases h' with
    | passed _ rest =>
      obtain ⟨rfl, rfl⟩ := ih rest
      exact ⟨rfl, rfl⟩
    | visited new continues => simp [new, continues] at known
  | visited new continues _ _ ihInner ih =>
    cases h' with
    | passed known => simp [new, continues] at known
    | visited _ _ inner rest =>
      obtain ⟨rfl, rfl⟩ := ihInner inner
      obtain ⟨rfl, rfl⟩ := ih rest
      exact ⟨rfl, rfl⟩

/-- What a recursive depth-first search of the graph tells from its start to its end. -/
inductive Itinerary (g : StateGraph) : List Note → Prop where
  | ended : g.isEnd 0 = true → Itinerary g [⟨.searchStarted, 0, 0⟩, ⟨.searchFinished, 0, 0⟩]
  | toured {log : List Note} {seen : List StateId} : g.isEnd 0 = false →
      Tour g 0 0 (g.targets 0) [0] log seen →
      Itinerary g (⟨.searchStarted, 0, 0⟩ :: (log ++ [⟨.searchFinished, 0, 0⟩]))

theorem Itinerary.unique (h : g.Itinerary log) (h' : g.Itinerary log') : log = log' := by
  cases h with
  | ended isEnd =>
    cases h' with
    | ended => rfl
    | toured continues => simp [isEnd] at continues
  | toured continues tour =>
    cases h' with
    | ended isEnd => simp [continues] at isEnd
    | toured _ tour' => rw [(tour.unique tour').1]

/-- From the initial state the search steps to itself and back, visits the second state, which leads to
    an end state and home, and steps to the second state again. -/
def tangleNotes : List Note := [
  ⟨.searchStarted, 0, 0⟩, ⟨.stateAdvanced, 1, 0⟩, ⟨.stateBacktracked, 0, 0⟩, ⟨.stateAdvanced, 1, 1⟩,
  ⟨.stateAdvanced, 2, 2⟩, ⟨.stateBacktracked, 1, 1⟩, ⟨.stateAdvanced, 2, 0⟩, ⟨.stateBacktracked, 1, 1⟩,
  ⟨.stateProcessed, 1, 1⟩, ⟨.stateBacktracked, 0, 0⟩, ⟨.stateAdvanced, 1, 1⟩, ⟨.stateBacktracked, 0, 0⟩,
  ⟨.stateProcessed, 0, 0⟩, ⟨.searchFinished, 0, 0⟩]

theorem itinerary_tangle : tangle.Itinerary tangleNotes := by
  have inner : tangle.Tour 1 1 [2, 0] [1, 0] _ [2, 1, 0] :=
    .passed (.inr rfl) (.passed (.inl (by decide)) .processed)
  have again : tangle.Tour 0 0 [1] [2, 1, 0] _ [2, 1, 0] :=
    .passed (.inl (by decide)) .processed
  exact .toured rfl (.passed (.inl (by decide)) (.visited (by decide) rfl inner again))

end StateGraph

/-! ## Stacks -/

/-- The states that the frame has still to lead to. -/
def Frame.targets (g : StateGraph) (f : Frame) : List StateId :=
  (f.remaining g).map (·.state)

theorem Frame.targets_declared {g : StateGraph} {s : StateId} (continues : g.isEnd s = false) :
    ({ state := s, choices := GraphEngine.declared g s } : Frame).targets g = g.targets s := by
  simp only [targets, remaining, List.drop_zero, StateGraph.picks_declared, StateGraph.outgoing, continues]
  simp [StateGraph.targets, Edge.transition]

namespace GraphEngine

variable {g : StateGraph} {e : GraphEngine}

theorem random_enter {edge : Edge} (declared : e.random = none) : (enter edge e).random = none := by
  show (arrange (GraphEngine.declared e.graph edge.target) e.random).2 = none
  rw [declared]
  rfl

theorem declared_ofGraph (h : ofGraph g = .ok e) :
    e.random = none ∧ e.frames = [{ state := 0, choices := declared g 0 }] := by
  obtain ⟨-, rfl⟩ := ofGraph_eq_ok_iff.1 h
  exact ⟨rfl, rfl⟩

end GraphEngine

mutual

/-- What is told from the moment on that the current frame is to be left. -/
inductive Returns (g : StateGraph) : List Frame → List StateId → List Note → Prop where
  | done {top : Frame} {seen : List StateId} : Returns g [top] seen []
  | back {top below : Frame} {rest : List Frame} {seen : List StateId} {log : List Note} :
      Resumes g (below :: rest) seen log →
      Returns g (top :: below :: rest) seen (⟨.stateBacktracked, rest.length, below.state⟩ :: log)

/-- What is told from the moment on that the current frame is about to go on. -/
inductive Resumes (g : StateGraph) : List Frame → List StateId → List Note → Prop where
  | toured {top : Frame} {rest : List Frame} {seen seen' : List StateId} {inner log : List Note} :
      g.Tour rest.length top.state (top.targets g) seen inner seen' → Returns g (top :: rest) seen' log →
      Resumes g (top :: rest) seen (inner ++ log)

end

section Stacks

variable {g : StateGraph} {top top' : Frame} {rest : List Frame} {seen : List StateId} {log : List Note}
  {edge : Edge}

/-- The frame that is left has no part in what follows. -/
theorem Returns.replace_top (h : Returns g (top :: rest) seen log) : Returns g (top' :: rest) seen log := by
  cases h with
  | done => exact .done
  | back resumes => exact .back resumes

theorem Resumes.of_spent (spent : top.remaining g = []) (h : Returns g (top :: rest) seen log) :
    Resumes g (top :: rest) seen (⟨.stateProcessed, rest.length, top.state⟩ :: log) := by
  have tour : g.Tour rest.length top.state (top.targets g) seen [⟨.stateProcessed, rest.length, top.state⟩]
      seen := by
    rw [Frame.targets, spent]
    exact .processed
  exact .toured tour h

section Enter

variable (remaining : top.remaining g = edge.transition :: top.next.remaining g)

include remaining

theorem targets_of_remaining : top.targets g = edge.target :: top.next.targets g := by
  rw [Frame.targets, remaining]
  rfl

theorem Resumes.of_passed (known : edge.target ∈ seen ∨ g.isEnd edge.target = true)
    (h : Returns g (top' :: top.next :: rest) (seen.insert edge.target) log) :
    Resumes g (top :: rest) seen (⟨.stateAdvanced, rest.length + 1, edge.target⟩ :: log) := by
  cases h with
  | back resumes =>
    cases resumes with
    | toured tour returns =>
      have passed := StateGraph.Tour.passed known tour
      rw [Frame.state_next, ← targets_of_remaining remaining] at passed
      exact .toured passed returns.replace_top

theorem Resumes.of_visited (new : edge.target ∉ seen) (continues : g.isEnd edge.target = false)
    (state : top'.state = edge.target) (unused : top'.targets g = g.targets edge.target)
    (h : Resumes g (top' :: top.next :: rest) (seen.insert edge.target) log) :
    Resumes g (top :: rest) seen (⟨.stateAdvanced, rest.length + 1, edge.target⟩ :: log) := by
  cases h with
  | toured inner returns =>
    rw [state, unused] at inner
    cases returns with
    | back resumes =>
      cases resumes with
      | toured tour returns =>
        have visited := StateGraph.Tour.visited new continues inner tour
        rw [Frame.state_next, ← targets_of_remaining remaining] at visited
        simpa using Resumes.toured visited returns.replace_top

end Enter

end Stacks

/-! ## Searches -/

namespace DepthFirst

open GraphEngine (Enters)

variable {P : Type} {g : StateGraph} {c : Config} {ps : List (Watched P)} {bad : StateId → Bool}
  {A : Audience GraphEngine P} {start r : Run GraphEngine P} {log : List Note}

/-- What a search still has to tell before it finishes. -/
def Pending (g : StateGraph) : Phase → GraphEngine → List Note → Prop
  | .judging, e, log =>
    if leaves false e.isNew e then Returns g e.frames e.visited log else Resumes g e.frames e.visited log
  | .going, e, log => Resumes g e.frames e.visited log
  | .ended, _, log => log = []

theorem pending_of_leaves {e : GraphEngine} (left : leaves false e.isNew e = true) :
    Pending g .judging e log ↔ Returns g e.frames e.visited log := by
  simp [Pending, left]

theorem pending_of_stays {e : GraphEngine} (stays : leaves false e.isNew e = false) :
    Pending g .judging e log ↔ Resumes g e.frames e.visited log := by
  simp [Pending, stays]

/-- The notes that the second run has more than the first come first in what the first had to tell. -/
def Tells (g : StateGraph) (p q : Phase × Run GraphEngine P) : Prop :=
  ∃ told, q.2.journal.notes = p.2.journal.notes ++ told ∧
    ∀ log, Pending g q.1 q.2.engine log → Pending g p.1 p.2.engine (told ++ log)

theorem Tells.trans {p q q' : Phase × Run GraphEngine P} (h : Tells g p q) (h' : Tells g q q') :
    Tells g p q' := by
  obtain ⟨told, notes, pending⟩ := h
  obtain ⟨told', notes', pending'⟩ := h'
  refine ⟨told ++ told', ?_, ?_⟩
  · rw [notes', notes, List.append_assoc]
  · intro log rest
    rw [List.append_assoc]
    exact pending _ (pending' log rest)

section Moves

variable {top below : Frame} {rest : List Frame} {edge : Edge}

theorem tells_retreated (h : Head g c ps [] r) (left : leaves false r.engine.isNew r.engine = true)
    (frames : r.engine.frames = top :: below :: rest) :
    Tells g (.judging, r) (.going, r.retreated A) := by
  have depth : (r.retreated A).depth = rest.length := by
    have depth := h.depth
    rw [frames] at depth
    simp only [List.length_cons] at depth
    show r.depth - 1 = rest.length
    omega
  have state : Engine.stateId (r.retreated A).engine = below.state := by
    rw [Run.engine_retreated frames]
    rfl
  refine ⟨_, Run.notes_of_bulletins Run.bulletins_retreated depth state, ?_⟩
  intro log resumes
  simp only [Pending, Run.engine_retreated frames, GraphEngine.frames_popped,
    GraphEngine.visited_popped] at resumes
  rw [pending_of_leaves left, frames]
  exact .back resumes

theorem tells_halted (h : Ready g c ps [] r) (frames : r.engine.frames = top :: rest)
    (spent : top.tried = top.choices.length)
    (stuck : Engine.forward r.engine = (false, r.engine.stall)) :
    Tells g (.going, r) (.judging, r.halted A) := by
  have engine : (r.halted A).engine = r.engine.stall := Run.engine_halted stuck
  have depth : (r.halted A).depth = rest.length := by
    have depth := h.depth
    rw [frames] at depth
    exact Nat.succ_injective depth
  have state : Engine.stateId (r.halted A).engine = top.state := by
    rw [engine]
    exact GraphEngine.current_of_frames frames
  refine ⟨_, Run.notes_of_bulletins Run.bulletins_halted depth state, ?_⟩
  intro log pending
  have left : leaves false (r.halted A).engine.isNew (r.halted A).engine = true := by
    rw [engine]
    rfl
  rw [pending_of_leaves left, engine] at pending
  have returns : Returns g (top :: rest) r.engine.visited log := frames ▸ pending
  show Resumes g r.engine.frames r.engine.visited _
  rw [frames]
  exact .of_spent (Frame.remaining_eq_nil spent) returns

theorem tells_onward (h : Ready g c ps [] r) (enters : Enters g r.engine top rest edge)
    (declared : r.engine.random = none) :
    Tells g (.going, r) (.judging, r.onward A) := by
  let entered := GraphEngine.entered edge { r.engine with frames := top.next :: rest }
  have frames : (r.onward A).engine.frames = entered :: top.next :: rest := Run.frames_onward enters
  have visited : (r.onward A).engine.visited = r.engine.visited.insert edge.target := by
    rw [Run.engine_onward enters, GraphEngine.visited_enter]
    simp [List.insert]
  have depth : (r.onward A).depth = rest.length + 1 := by
    have depth := h.depth
    rw [enters.frames] at depth
    exact depth
  refine ⟨_, Run.notes_of_bulletins Run.bulletins_onward depth (Run.state_onward enters), ?_⟩
  intro log pending
  show Resumes g r.engine.frames r.engine.visited _
  rw [enters.frames]
  have leaving : leaves false (r.onward A).engine.isNew (r.onward A).engine =
      (!decide (edge.target ∉ r.engine.visited) || g.isEnd edge.target) := by
    rw [leaves_false ((Run.ignored_onward enters).trans h.ignored) frames, Run.isNew_onward enters,
      Run.graph_onward enters, h.wellFormed.graph]
    rfl
  -- Whether the search stays is what decides between a visit and a mere step there and back.
  cases left : leaves false (r.onward A).engine.isNew (r.onward A).engine with
  | true =>
    rw [pending_of_leaves left, frames, visited] at pending
    have known : edge.target ∈ r.engine.visited ∨ g.isEnd edge.target = true := by
      simpa using leaving.symm.trans left
    exact .of_passed enters.remaining known pending
  | false =>
    rw [pending_of_stays left, frames, visited] at pending
    obtain ⟨new, continues⟩ : edge.target ∉ r.engine.visited ∧ g.isEnd edge.target = false := by
      simpa using leaving.symm.trans left
    have unused : entered.targets g = g.targets edge.target := by
      rw [← Frame.targets_declared continues, ← h.wellFormed.graph]
      simp only [entered, GraphEngine.entered, declared]
      rfl
    exact .of_visited enters.remaining new continues rfl unused pending

end Moves

/-- What holds along a search that started with a given run and takes edges as they are declared. -/
structure Touring (g : StateGraph) (start : Run GraphEngine P) (phase : Phase) (r : Run GraphEngine P) :
    Prop where
  declared : r.engine.random = none
  tells : Tells g (.judging, start) (phase, r)
  home : phase = .ended → Engine.stateId r.engine = 0

theorem Moves.touring {p q : Phase × Run GraphEngine P} (moves : Moves g c ps [] A p q)
    (h : Touring g start p.1 p.2) : Touring g start q.1 q.2 := by
  cases moves with
  | stayed _ stays =>
    refine ⟨h.declared, h.tells.trans ⟨[], (List.append_nil _).symm, ?_⟩, nofun⟩
    exact fun log resumes => (pending_of_stays stays).2 resumes
  | retreated head left frames =>
    rw [head.unrequested, Bool.false_or] at left
    rw [head.obeying_eq]
    refine ⟨?_, h.tells.trans (tells_retreated head left frames), nofun⟩
    rw [Run.engine_retreated frames]
    exact h.declared
  | onward ready enters _ =>
    refine ⟨?_, h.tells.trans (tells_onward ready enters h.declared), nofun⟩
    rw [Run.engine_onward enters]
    exact GraphEngine.random_enter h.declared
  | struck _ _ forbidden _ _ _ => nomatch forbidden
  | halted ready frames spent stuck =>
    refine ⟨?_, h.tells.trans (tells_halted ready frames spent stuck), nofun⟩
    rw [Run.engine_halted stuck]
    exact h.declared
  | @refused r top head left frames =>
    rw [head.unrequested, Bool.false_or] at left
    rw [head.obeying_eq]
    have engine := Run.engine_stepBack_of_root frames
    have notes : r.forgetQuery.stepBack.2.journal.notes = r.journal.notes := by
      show (r.journal.record _).notes = _
      simp [Journal.notes, Entry.bulletin?]
    refine ⟨engine ▸ h.declared, h.tells.trans ⟨[], by simpa using notes, ?_⟩, ?_⟩
    · rintro _ rfl
      rw [pending_of_leaves left, frames]
      exact .done
    · intro _
      have stacked := head.wellFormed.stacked
      rw [frames] at stacked
      show Engine.stateId r.forgetQuery.stepBack.2.engine = 0
      rw [engine, show Engine.stateId r.engine = top.state from GraphEngine.current_of_frames frames]
      exact stacked.state_of_singleton

/-- What a search has to tell at its start is what the recursive search tells. -/
theorem itinerary_of_pending {e : GraphEngine} (fresh : GraphEngine.Fresh g e)
    (frames : e.frames = [{ state := 0, choices := GraphEngine.declared g 0 }])
    (pending : Pending g .judging e log) :
    g.Itinerary (⟨.searchStarted, 0, 0⟩ :: (log ++ [⟨.searchFinished, 0, 0⟩])) := by
  have leaving := leaves_false fresh.ignored frames
  have isNew : (!e.isNew) = false := by rw [fresh.isNew]; rfl
  rw [fresh.wellFormed.graph, isNew, Bool.false_or] at leaving
  cases isEnd : g.isEnd 0 with
  | true =>
    rw [pending_of_leaves (leaving.trans isEnd), frames] at pending
    cases pending with
    | done => exact .ended isEnd
  | false =>
    rw [pending_of_stays (leaving.trans isEnd), frames, fresh.visited] at pending
    cases pending with
    | toured tour returns =>
      rw [Frame.targets_declared isEnd] at tour
      cases returns with
      | done => simpa using StateGraph.Itinerary.toured isEnd tour

/-- What a search without bad states told when it finished is what the recursive search tells. -/
theorem Finished.itinerary {reason : StopReason}
    (h : Finished g c ps (fun _ => false) A (start.said A .searchStarted) reason r)
    (atStart : start.AtStart g c ps (fun _ => false)) (made : GraphEngine.ofGraph g = .ok start.engine)
    (untold : start.journal.bulletins = []) : g.Itinerary (r.concluded A).journal.notes := by
  obtain ⟨declared, frames⟩ := GraphEngine.declared_ofGraph made
  have opening : (start.said A .searchStarted).journal.notes = [⟨.searchStarted, 0, 0⟩] := by
    have state : Engine.stateId start.engine = 0 := GraphEngine.current_of_frames frames
    rw [Run.notes_of_bulletins (Run.bulletins_said _) atStart.depth_eq state, Journal.notes, untold]
    rfl
  obtain ⟨-, depth, -, reached⟩ := h.reached_ended
  have touring : Touring g (start.said A .searchStarted) .ended r :=
    reached.induction ⟨declared, ⟨[], (List.append_nil _).symm, fun _ => id⟩, nofun⟩
      fun _ _ ih moves => moves.touring ih
  obtain ⟨told, notes, pending⟩ := touring.tells
  have closing : (r.concluded A).journal.notes = r.journal.notes ++ [⟨.searchFinished, 0, 0⟩] :=
    Run.notes_of_bulletins (Run.bulletins_said _) depth (touring.home rfl)
  rw [closing, notes, opening]
  simpa using itinerary_of_pending atStart.fresh frames (pending [] rfl)

end DepthFirst

end Statewalk
