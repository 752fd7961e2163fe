import Statewalk.Proofs.DepthTracking
import Statewalk.Proofs.StaticProperties

/-! # Searches that nobody listens to

Without listeners and a reporter, and with properties that are predicates of the current state, a
search over a graph is a function of its run.  `Vouches` follows the properties through checks and
resets, and the rules `alone_*` execute an operation together with what comes after it.
-/

namespace Statewalk

/-! ## Predicates of the current state -/

section Predicates

variable {P : Type} [Checkable GraphEngine P]

/-- The admitted properties are predicates of the current state of an engine over the graph, whatever
    else they gather while they are checked. -/
structure Checkable.Pointwise (g : StateGraph) (admits : P → Prop) (holds : P → StateId → Bool) : Prop
    where
  check : ∀ (r : Run GraphEngine P) p, r.engine.WellFormed g → admits p →
    (Checkable.check r p).1 = holds p r.engine.current ∧
      admits (Checkable.check r p).2 ∧ holds (Checkable.check r p).2 = holds p
  reset : ∀ p, admits p → admits (Property.reset p) ∧ holds (Property.reset p) = holds p

theorem Subject.pointwise (g : StateGraph) : Checkable.Pointwise (P := Subject) g (·.isStatic = true)
    fun p s => !p.breaksAt g s where
  check r p wellFormed static := by
    obtain ⟨holds, static', same⟩ := check_static static wellFormed
    exact ⟨holds, static', funext fun s => congrArg not (same s)⟩
  reset p static := by
    obtain ⟨static', same⟩ := reset_static (g := g) static
    exact ⟨static', funext fun s => congrArg not (same s)⟩

/-- What a check makes of a run in a state where all properties hold, or not all of them do. -/
structure Run.Checked {E P : Type} (good : Bool) (r q : Run E P) (found : List Entry) : Prop where
  engine : q.engine = r.engine
  config : q.config = r.config
  depth : q.depth = r.depth
  probeRequested : q.probeRequested = r.probeRequested
  backtrackRequested : q.backtrackRequested = r.backtrackRequested
  isDone : q.done = (r.done || (!good && !r.config.continueOnViolation))
  atViolation : q.atViolation = (r.atViolation || !good)
  violations : q.violations.length = r.violations.length + found.length
  entries : q.journal.entries = r.journal.entries ++ found
  verdict : good = true ∧ found = [] ∨ good = false ∧ ∃ id name, found = [.violated id name r.depth]

/-- All properties are admitted, and hold together in exactly the good states. -/
structure Vouches (admits : P → Prop) (holds : P → StateId → Bool) (good : StateId → Bool)
    (ps : List (Watched P)) : Prop where
  admitted : ∀ w ∈ ps, admits w.property
  all : ∀ s, (ps.all fun w => holds w.property s) = good s

namespace Vouches

variable {g : StateGraph} {admits : P → Prop} {holds : P → StateId → Bool} {good : StateId → Bool}
  {ps : List (Watched P)} {r : Run GraphEngine P}

theorem checkUntil (pointwise : Checkable.Pointwise g admits holds) (h : Vouches admits holds good ps)
    (wellFormed : r.engine.WellFormed g) : (Run.checkUntil r ps).2.isNone = good r.engine.current ∧
      Vouches admits holds good (Run.checkUntil r ps).1 := by
  induction ps generalizing good with
  | nil => exact ⟨h.all _, h⟩
  | cons w ps ih =>
    obtain ⟨admitted, others⟩ := List.forall_mem_cons.1 h.admitted
    obtain ⟨result, admitted', same⟩ := pointwise.check r w.property wellFormed admitted
    have rest : Vouches admits holds (fun s => ps.all fun w => holds w.property s) ps :=
      ⟨others, fun _ => rfl⟩
    obtain ⟨found, vouches⟩ := ih rest
    have all := h.all
    simp only [List.all_cons] at all
    simp only [Run.checkUntil, result]
    -- A property that holds is passed, and the first one that does not ends the check.
    cases here : holds w.property r.engine.current with
    | true =>
      refine ⟨by simp [← all, here, found], List.forall_mem_cons.2 ⟨admitted', vouches.admitted⟩, ?_⟩
      intro s
      simp [same, ← all, vouches.all]
    | false =>
      refine ⟨by simp [← all, here], List.forall_mem_cons.2 ⟨admitted', others⟩, ?_⟩
      intro s
      simp [same, ← all]

theorem reset (pointwise : Checkable.Pointwise g admits holds) (h : Vouches admits holds good ps) :
    Vouches admits holds good (ps.map fun w => { w with property := Property.reset w.property }) where
  admitted := by
    simpa using fun w hw => (pointwise.reset _ (h.admitted w hw)).1
  all s := by
    rw [← h.all s, List.all_map, Bool.eq_iff_iff, List.all_eq_true, List.all_eq_true]
    refine forall₂_congr fun w hw => ?_
    rw [Function.comp_apply, (pointwise.reset _ (h.admitted w hw)).2]

/-- A check finds a violation exactly in a state that is not good. -/
theorem checkProperties (pointwise : Checkable.Pointwise g admits holds)
    (h : Vouches admits holds good r.properties) (wellFormed : r.engine.WellFormed g) :
    Vouches admits holds good r.checkProperties.2.properties ∧
      ∃ found, Run.Checked (good r.engine.current) r r.checkProperties.2 found := by
  obtain ⟨passed, vouches⟩ := h.checkUntil pointwise wellFormed
  rcases checked : Run.checkUntil r r.properties with ⟨ps, violated⟩
  rw [checked] at passed vouches
  simp only [Run.checkProperties, checked]
  rw [← passed]
  cases violated with
  | none => exact ⟨vouches, [], rfl, rfl, rfl, rfl, rfl, by simp, by simp, rfl, by simp, .inl ⟨rfl, rfl⟩⟩
  | some w =>
    refine ⟨vouches, [.violated (r.violations.length + 1) (Named.name w.property) r.depth], ?_⟩
    refine ⟨rfl, rfl, rfl, rfl, rfl, ?_, ?_, ?_, Journal.entries_record _ _, .inr ⟨rfl, _, _, rfl⟩⟩
    · simp [Run.violate, Run.record]
    · simp [Run.violate, Run.record]
    · simp [Run.violate, Run.record]

end Vouches

end Predicates

/-! ## Searches that nobody listens to -/

/-- The engine after it returned to a snapshot and chooses afresh. -/
def GraphEngine.restarted (snapshot : Snapshot Saved) (e : GraphEngine) : GraphEngine :=
  Engine.resetChoice (Engine.restore snapshot e).2

/-- The run after its engine returned to the start and chooses afresh. -/
def Run.restarted {P : Type} (start : GraphEngine) (r : Run GraphEngine P) : Run GraphEngine P :=
  { r with
    lastQuery := none
    atViolation := false
    engine := r.engine.restarted start.snapshot
    depth := start.snapshot.pathLength
    journal := r.journal.record (.moved .restore r.depth true) }

namespace Run

variable {E P : Type} {r : Run E P}

/-- The run after an announcement that nobody hears. -/
def posted [Engine E] (event : Event) (r : Run E P) : Run E P :=
  r.record (.announced (r.bulletin 0 event))

/-- The run after a strategy was launched. -/
def launched (strategy : String) (r : Run E P) : Run E P :=
  { r with
    matching := true
    journal :=
      (if r.properties.isEmpty then r.journal.record .unguarded else r.journal).record (.launched strategy) }

/-- What is told before a strategy begins. -/
def preamble (strategy : String) (r : Run E P) : List Entry :=
  if r.properties.isEmpty then [.unguarded, .launched strategy] else [.launched strategy]

theorem entries_launched (strategy : String) (r : Run E P) :
    (r.launched strategy).journal.entries = r.journal.entries ++ r.preamble strategy := by
  simp only [launched, preamble]
  split <;> simp

theorem takeBacktrackRequest_of_not (unrequested : r.backtrackRequested = false) :
    r.takeBacktrackRequest = (false, r) := by
  rw [takeBacktrackRequest, ← unrequested]

theorem takeProbeRequest_of_not (unprobed : r.probeRequested = false) :
    r.takeProbeRequest = (false, r) := by
  rw [takeProbeRequest, ← unprobed]

end Run

namespace Search

variable {E P L : Type} {α β : Type} {r : Run E P} {post : β → Run E P → Prop}

/-- Nobody listens to the search, and its run is the given one. -/
def Alone (s : Search E P L) (r : Run E P) : Prop :=
  s = { run := r }

theorem alone_pure {b : β} (h : post b r) : Attains (Alone (L := L)) (pure b) r post :=
  fun s hs => ⟨b, s, r, rfl, hs, h⟩

/-- An operation whose result is known is executed, and what comes after it is left. -/
theorem alone_bind {x : SearchM E P L α} {k : α → SearchM E P L β} {a : α} {q : Run E P}
    (ran : x { run := r } = .ok a { run := q }) (h : Attains Alone (k a) q post) :
    Attains Alone (x >>= k) r post := by
  rintro _ rfl
  rw [EStateM.bind_of_ok ran]
  exact h _ rfl

theorem alone_look {f : Run E P → α} {k : α → SearchM E P L β} (h : Attains Alone (k (f r)) r post) :
    Attains Alone (look f >>= k) r post :=
  alone_bind rfl h

theorem alone_update {f : Run E P → α × Run E P} {k : α → SearchM E P L β}
    (h : Attains Alone (k (f r).1) (f r).2 post) : Attains Alone (update f >>= k) r post :=
  alone_bind rfl h

theorem alone_change {f : Run E P → Run E P} {k : Unit → SearchM E P L β}
    (h : Attains Alone (k ()) (f r) post) : Attains Alone (change f >>= k) r post :=
  alone_bind rfl h

theorem alone_descend {k : Unit → SearchM E P L β} (room : r.depth + 1 < wordLimit)
    (h : Attains Alone (k ()) { r with depth := r.depth + 1 } post) :
    Attains Alone (onRun Run.descend >>= k) r post := by
  have sum : addWords r.depth 1 = .ok (r.depth + 1) := if_pos room
  have descends : Run.descend r = .ok () { r with depth := r.depth + 1 } := by
    rw [Run.descend_apply, sum]
  exact alone_bind (onRun_eq_ok.2 ⟨_, descends, rfl⟩) h

theorem alone_launch {strategy : String} {k : Unit → SearchM E P L β}
    (h : Attains Alone (k ()) (r.launched strategy) post) :
    Attains Alone (launch strategy >>= k) r post := by
  refine alone_bind ?_ h
  simp only [launch, bind, EStateM.bind, look_apply, Run.launched]
  split <;> rfl

section Engine

variable [Engine E]

theorem alone_forward [Checkable E P] {k : Bool → SearchM E P L β}
    (h : Attains Alone (k (Engine.forward r.engine).1) r.stepped.checkProperties.2 post) :
    Attains Alone (forward >>= k) r post := by
  refine alone_bind ?_ h
  simp only [forward, bind, EStateM.bind, change_apply, update_apply, Run.stepForward_eq]
  rfl

variable [Listener E P L]

theorem announce_alone (event : Event) (r : Run E P) :
    announce event ({ run := r } : Search E P L) = .ok () { run := r.posted event } := rfl

theorem alone_announce {event : Event} {k : Unit → SearchM E P L β}
    (h : Attains Alone (k ()) (r.posted event) post) : Attains Alone (announce event >>= k) r post :=
  alone_bind (announce_alone event r) h

theorem alone_announceConstraint {details : String} {k : Unit → SearchM E P L β}
    (h : Attains Alone (k ())
      (({ r with lastConstraint := some details } : Run E P).posted .searchConstraintHit) post) :
    Attains Alone (announceConstraint details >>= k) r post :=
  alone_bind rfl h

theorem alone_announceViolation [Property P] {k : Unit → SearchM E P L β}
    (h : Attains Alone (k ()) (if r.config.continueOnViolation
      then (r.posted .propertyViolated).resetProperties else r.posted .propertyViolated) post) :
    Attains Alone (announceViolation >>= k) r post := by
  refine alone_bind ?_ h
  have continues : (r.posted .propertyViolated).config = r.config := rfl
  rw [announceViolation, EStateM.bind_of_ok (announce_alone .propertyViolated r)]
  simp only [bind, EStateM.bind, look_apply, continues]
  split <;> rfl

theorem alone_pollProbe {k : Unit → SearchM E P L β} (unprobed : r.probeRequested = false)
    (h : Attains Alone (k ()) r post) : Attains Alone (pollProbe >>= k) r post := by
  refine alone_bind ?_ h
  simp only [pollProbe, bind, EStateM.bind, update_apply, Run.takeProbeRequest_of_not unprobed]
  rfl

end Engine

/-- A return to a snapshot of an engine over a graph, from where the engine chooses afresh. -/
theorem alone_restart {r : Run GraphEngine P} {post : β → Run GraphEngine P → Prop} {start : GraphEngine}
    {strategy : String} {k : Unit → SearchM GraphEngine P L β}
    (h : Attains Alone (k ()) (r.restarted start) post) :
    Attains Alone (restore (E := GraphEngine) start.snapshot strategy >>= fun _ =>
      change (fun r => { r with engine := Engine.resetChoice r.engine }) >>= k) r post :=
  alone_bind rfl (alone_change h)

end Search

/-! ## Engines -/

namespace GraphEngine

variable {g : StateGraph} {e : GraphEngine} {top : Frame} {rest : List Frame}

/-- In a valid graph only end states keep an engine from going on that tried nothing yet. -/
theorem WellFormed.forward_of_untried (h : WellFormed g e) (valid : g.validate = .ok ())
    (frames : e.frames = top :: rest) (untried : top.tried = 0) :
    (g.isEnd top.state = true ∧ Engine.forward e = (false, e.stall)) ∨
      ∃ i edge, top.choices[0]? = some i ∧ (g.edges top.state)[i]? = some edge ∧
        Enters g e top rest edge := by
  have proper : top.Proper g := (frames ▸ h.stacked).proper
  cases isEnd : g.isEnd top.state with
  | true =>
    have none : top.tried = top.choices.length := by simp [untried, proper.choices_of_end isEnd]
    exact .inl ⟨rfl, forward_of_tried_eq frames none⟩
  | false =>
    -- The state is one of the graph, and has an edge because it is no end state.
    have inside : top.state < g.size := by
      rw [← current_of_frames frames]
      exact (h.route frames).reachable.lt_size valid
    have edges : (g.edges top.state).length ≠ 0 := by
      intro empty
      have state : g.states[top.state]? = some g.states[top.state] := List.getElem?_eq_getElem inside
      simp [StateGraph.isEnd, StateGraph.edges, StateGraph.state?, state] at isEnd empty
      exact isEnd.2 empty
    have some : top.tried < top.choices.length := by
      rw [untried, proper.perm.length_eq, declared, isEnd]
      simpa using Nat.pos_of_ne_zero edges
    obtain ⟨i, edge, choice, hedge, notEnd, remaining, forward⟩ := h.forward_of_tried_lt frames some
    have out : edge.transition ∈ g.outgoing top.state :=
      StateGraph.mem_outgoing.2 ⟨notEnd, edge, List.mem_of_getElem? hedge, rfl⟩
    rw [untried] at choice
    exact .inr ⟨i, edge, choice, hedge, frames, remaining, out, forward,
      h.enter frames some (untried ▸ choice) hedge⟩

/-- Back at the start the engine has tried nothing; without random choices it is as it was. -/
theorem Fresh.restarted {start : GraphEngine} (fresh : Fresh g start) {choices : List Nat}
    (frames : start.frames = [{ state := 0, choices }]) (h : WellFormed g e) :
    WellFormed g (e.restarted start.snapshot) ∧
      ∃ order, (e.restarted start.snapshot).frames = [{ state := 0, choices := order }] ∧
        (e.random = none → order = choices ∧ (e.restarted start.snapshot).random = none) := by
  have restored := ((paced g).restore start.snapshot e ⟨start, fresh.wellFormed, rfl⟩ h).1
  have shape : e.restarted start.snapshot =
      resetChoice (syncThreads { e.stall with frames := start.frames, path := start.path }) := rfl
  refine ⟨((paced g).resetChoice _ restored).1, (arrange choices e.random).1, ?_, ?_⟩
  · rw [shape]
    simp [resetChoice, syncThreads, stall, frames]
  · intro none
    rw [shape]
    simp [resetChoice, syncThreads, stall, frames, none, arrange]

end GraphEngine

namespace Run

variable {P : Type} {g : StateGraph} {r : Run GraphEngine P} {top : Frame} {rest : List Frame}
  {edge : Edge}

theorem entries_stepped_of_enters (enters : GraphEngine.Enters g r.engine top rest edge) :
    r.stepped.journal.entries = r.journal.entries ++ [.moved .forward r.depth true,
      .crossed top.state edge.transition (decide (edge.target ∉ r.engine.visited))] := by
  show (r.stepJournal r.journal).entries = _
  rw [stepJournal, crossing?_of_enters enters, enters.forward]
  simp

end Run

end Statewalk
