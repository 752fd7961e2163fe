import Statewalk.Proofs.ContinuedSteps
import Statewalk.Proofs.Detection
import Statewalk.Proofs.ViolationAccounts

/-! # Quiet runs over a state graph that go on after violations

What holds of a quiet search for forbidden states between two of its operations, whatever the
strategy, when it goes on after violations: what it recorded so far are its crossings into forbidden
states, in order.  Each strategy makes the moves that it always makes, and leaves a forbidden state as
soon as it has announced it.

* `Recorded` — the records, the announcements and the crossings into forbidden states agree.
* `Roaming` — that, and what every move of the engine keeps.
* `DepthFirst.attains_run_continued`, `BestFirst.attains_run_continued` — the runs come to their end, with
  every crossing into a forbidden state recorded.
-/

namespace Statewalk

open ForbiddenStates (alone)
open GraphEngine (Enters)

/-- The configuration does not keep a search from going through a graph of the given size, and lets
    it go on after violations. -/
structure Config.Continued (c : Config) (size : Nat) : Prop extends c.Spacious size where
  continues : c.continueOnViolation = true

theorem Config.continued_default {size : Nat} (small : size < 2 ^ 63) :
    ({ continueOnViolation := true } : Config).Continued size :=
  ⟨⟨rfl, Nat.lt_of_lt_of_le small (by decide), rfl, rfl⟩, rfl⟩

/-- The violation is the record of the crossing: the path that it was found on leads along edges of
    the graph and over states that are not forbidden up to the crossing. -/
def Violation.Tells (g : StateGraph) (F : List StateId) (v : Violation ForbiddenStates)
    (x : Crossing) : Prop :=
  ∃ path threads ts, v.evidence = .detached { states := F, hit := some x.target } path threads ∧
    path.transitions = ts ++ [x.transition] ∧ g.Route ts x.source ∧ ∀ t ∈ ts, t.state ∉ F

namespace Journal

variable {j j' : Journal} {b : Bulletin}

/-- The crossings into forbidden states, in order. -/
def crossingsInto (F : List StateId) (j : Journal) : List Crossing :=
  j.crossings.filter (·.target ∈ F)

theorem announcedViolations_of_other (bulletins : j'.bulletins = j.bulletins ++ [b])
    (other : b.event ≠ .propertyViolated) : j'.announcedViolations = j.announcedViolations := by
  simp [announcedViolations, bulletins, other]

theorem announcedViolations_of_violated (bulletins : j'.bulletins = j.bulletins ++ [b])
    (violated : b.event = .propertyViolated) :
    j'.announcedViolations = j.announcedViolations ++ [b.violations] := by
  simp [announcedViolations, bulletins, violated]

end Journal

namespace Run

variable {g : StateGraph} {c : Config} {F : List StateId} {A : Audience GraphEngine ForbiddenStates}
  {r r' : Run GraphEngine ForbiddenStates} {top below : Frame} {rest : List Frame} {edge : Edge}

/-! ## Records -/

/-- The violations tell the crossings into forbidden states and are numbered in order, and each was
    announced. -/
structure Recorded (g : StateGraph) (F : List StateId) (r : Run GraphEngine ForbiddenStates) : Prop where
  ids : r.violations.map (·.id) = List.range' 1 r.violations.length
  tells : List.Forall₂ (Violation.Tells g F) r.violations (r.journal.crossingsInto F)
  announced : r.journal.announcedViolations = r.violations.map (·.id)

theorem Recorded.congr (h : Recorded g F r) (violations : r'.violations = r.violations)
    (crossings : r'.journal.crossingsInto F = r.journal.crossingsInto F)
    (announced : r'.journal.announcedViolations = r.journal.announcedViolations) : Recorded g F r' := by
  refine ⟨?_, ?_, ?_⟩
  · rw [violations]
    exact h.ids
  · rw [violations, crossings]
    exact h.tells
  · rw [violations, announced]
    exact h.announced

/-- One more violation, which was announced, for one more crossing into a forbidden state. -/
theorem Recorded.violated (h : Recorded g F r) {evidence : Evidence ForbiddenStates} {x : Crossing}
    (violations : r'.violations = r.violations ++ [{ id := r.violations.length + 1, evidence }])
    (crossings : r'.journal.crossingsInto F = r.journal.crossingsInto F ++ [x])
    (announced : r'.journal.announcedViolations =
      r.journal.announcedViolations ++ [r.violations.length + 1])
    (tells : Violation.Tells g F { id := r.violations.length + 1, evidence } x) : Recorded g F r' := by
  refine ⟨?_, ?_, ?_⟩
  · rw [violations, List.map_append, h.ids, List.length_append, List.length_singleton,
      List.range'_1_concat, Nat.add_comm 1]
    rfl
  · rw [violations, crossings]
    exact List.rel_append h.tells (.cons tells .nil)
  · rw [violations, announced, h.announced, List.map_append]
    rfl

/-! ## Between the moves -/

/-- What holds of a quiet run over `g` that goes on after violations, between two operations. -/
structure Roaming (g : StateGraph) (c : Config) (F : List StateId)
    (r : Run GraphEngine ForbiddenStates) : Prop extends Run.Afoot g c [alone F] r where
  recorded : r.Recorded g F

theorem announcedViolations_said (event : Event) (other : event ≠ .propertyViolated) :
    (r.said A event).journal.announcedViolations = r.journal.announcedViolations :=
  Journal.announcedViolations_of_other (bulletins_said event) other

section Broken

variable (ps : List (Watched ForbiddenStates)) (w : Watched ForbiddenStates)

theorem violations_broken_continued (continues : r.config.continueOnViolation = true) :
    (r.broken ps w).violations = r.violations ++ [{
      id := r.violations.length + 1
      evidence := .detached w.property (Engine.path (r.broken ps w).engine)
        (Engine.threads (r.broken ps w).engine) }] := by
  simp [broken, violate, evidence, stepped, record, continues]

theorem crossings_broken (enters : Enters g r.engine top rest edge) : (r.broken ps w).journal.crossings =
    r.journal.crossings ++ [⟨top.state, edge.transition, decide (edge.target ∉ r.engine.visited)⟩] := by
  rw [← crossings_stepped_of_enters enters]
  show (r.stepped.journal.record _).crossings = _
  simp [Entry.crossing?]

theorem crossings_struck (enters : Enters g r.engine top rest edge) (s : StateId) :
    (r.struck A F s).journal.crossings = r.journal.crossings ++
      [⟨top.state, edge.transition, decide (edge.target ∉ r.engine.visited)⟩] := by
  let hit := ForbiddenStates.struck F s
  refine (crossings_said (r := { r.broken [hit] hit with depth := r.depth + 1 }) .stateAdvanced).trans ?_
  exact crossings_broken _ _ enters

theorem crossings_reported (q : Run GraphEngine ForbiddenStates) :
    (q.reported A).journal.crossings = q.journal.crossings :=
  crossings_said .propertyViolated

theorem crossings_requested (enters : Enters g r.engine top rest edge) (s : StateId) :
    ((r.struck A F s).reported A).requestBacktrack.journal.crossings = (r.onward A).journal.crossings := by
  refine (crossings_reported (r.struck A F s)).trans ?_
  rw [crossings_struck enters, crossings_onward enters]

theorem crossings_dismissed (enters : Enters g r.engine top rest edge) (s : StateId) :
    ((r.struck A F s).dismissed A).journal.crossings = (r.onward A).journal.crossings := by
  refine (crossings_reported ((r.struck A F s).judged _ _)).trans ?_
  refine Eq.trans ?_ (crossings_onward enters).symm
  exact crossings_struck enters s

theorem bulletins_broken : (r.broken ps w).journal.bulletins = r.journal.bulletins := by
  refine Eq.trans ?_ (bulletins_stepped (r := r))
  show (r.stepped.journal.record _).bulletins = _
  simp [Entry.bulletin?]

end Broken

namespace Roaming

/-- A move that enters no forbidden state leaves the records as they are. -/
theorem persistent : Persistent g c [alone F] (fun s => decide (s ∈ F)) (Roaming g c F) := by
  refine fun r r' h afoot harmless => ⟨afoot, ?_⟩
  refine h.recorded.congr harmless.violations harmless.crossings ?_
  rw [Journal.announcedViolations, harmless.announced, Journal.announcedViolations]

theorem requesting (h : Roaming g c F r) (requested : Bool) :
    Roaming g c F { r with backtrackRequested := requested } :=
  ⟨h.toAfoot.requesting requested, h.recorded.congr rfl rfl rfl⟩

/-- The engine followed an edge to a forbidden state: one more crossing into one, one more violation
    that tells it, and one more announcement. -/
theorem recorded_reported (h : Roaming g c F r) (continues : c.continueOnViolation = true)
    (enters : Enters g r.engine top rest edge) (forbidden : edge.target ∈ F)
    (allowed : ∀ f ∈ r.engine.frames, f.state ∉ F) (depths : DepthTable) (query : Option Query) :
    Recorded g F (({ r.struck A F edge.target with depths, lastQuery := query } :
      Run GraphEngine ForbiddenStates).reported A) := by
  let hit := ForbiddenStates.struck F edge.target
  let entered : Run GraphEngine ForbiddenStates := { r.broken [hit] hit with depth := r.depth + 1 }
  let struck : Run GraphEngine ForbiddenStates :=
    { r.struck A F edge.target with depths, lastQuery := query }
  let x : Crossing := ⟨top.state, edge.transition, decide (edge.target ∉ r.engine.visited)⟩
  have violations := violations_broken_continued [hit] hit (h.config.symm ▸ continues)
  have crossings : (struck.reported A).journal.crossings = r.journal.crossings ++ [x] :=
    (crossings_reported struck).trans (crossings_struck enters edge.target)
  have advanced : struck.journal.announcedViolations = r.journal.announcedViolations := by
    refine (announcedViolations_said (r := entered) .stateAdvanced nofun).trans ?_
    rw [Journal.announcedViolations, show entered.journal.bulletins = r.journal.bulletins from
      bulletins_broken _ _]
    rfl
  refine h.recorded.violated violations (x := x) ?_ ?_ ?_
  · rw [Journal.crossingsInto, crossings, List.filter_append]
    simp [Journal.crossingsInto, Crossing.target, forbidden, x]
  · have announced := Journal.announcedViolations_of_violated (bulletins_said (A := A) (r := struck)
      .propertyViolated) rfl
    rw [advanced] at announced
    refine announced.trans ?_
    show _ ++ [(r.broken [hit] hit).violations.length] = _
    rw [violations, List.length_append, List.length_singleton]
  · have engine : (r.broken [hit] hit).engine = _ := congrArg Prod.snd enters.forward
    refine ⟨_, _, r.engine.path.transitions, rfl, ?_, ?_, ?_⟩
    · show (r.broken [hit] hit).engine.path.transitions = _
      rw [engine]
      simp [x]
    · exact h.placed.wellFormed.stacked.route enters.frames
    · intro t ht
      obtain ⟨f, hf, state⟩ := h.placed.wellFormed.stacked.frame_of_mem (List.mem_reverse.1 ht)
      exact state ▸ allowed f hf

variable {L : Type} [Listener GraphEngine ForbiddenStates L] {ls : List L} (hears : A.Hears c ls)

include hears

theorem reported (h : Roaming g c F r) (continues : c.continueOnViolation = true)
    (enters : Enters g r.engine top rest edge) (forbidden : edge.target ∈ F)
    (allowed : ∀ f ∈ r.engine.frames, f.state ∉ F) {depths : DepthTable} {query : Option Query}
    (recalls : ({ r.struck A F edge.target with depths, lastQuery := query } :
      Run GraphEngine ForbiddenStates).Recalls) :
    Roaming g c F (({ r.struck A F edge.target with depths, lastQuery := query } :
      Run GraphEngine ForbiddenStates).reported A) :=
  { h.toAfoot.onward (A := A) hears enters with
    notDone := by
      show (r.done || !r.config.continueOnViolation) = false
      rw [h.notDone, h.config, continues]
      rfl
    properties := rfl
    recalls := Search.recalls_said hears h.config recalls
    recorded := h.recorded_reported continues enters forbidden allowed depths query }

theorem recalls_struck (h : Roaming g c F r) (s : StateId) : (r.struck A F s).Recalls :=
  Search.recalls_said (r := { r.broken _ _ with depth := r.depth + 1 }) hears h.config
    (recalls_of_none rfl)

theorem requested (h : Roaming g c F r) (continues : c.continueOnViolation = true)
    (enters : Enters g r.engine top rest edge) (forbidden : edge.target ∈ F)
    (allowed : ∀ f ∈ r.engine.frames, f.state ∉ F) :
    Roaming g c F ((r.struck A F edge.target).reported A).requestBacktrack :=
  (h.reported hears continues enters forbidden allowed (h.recalls_struck hears edge.target)).requesting true

theorem dismissed (h : Roaming g c F r) (continues : c.continueOnViolation = true)
    (plain : c.matchByMinDepth = false) (enters : Enters g r.engine top rest edge)
    (forbidden : edge.target ∈ F) (allowed : ∀ f ∈ r.engine.frames, f.state ∉ F) :
    Roaming g c F ((r.struck A F edge.target).dismissed A) := by
  have recalls := recalls_asked (r := r.struck A F edge.target) (h.config.symm ▸ plain)
    (h.recalls_struck hears edge.target)
  exact (h.reported hears continues enters forbidden allowed recalls).requesting false

end Roaming

/-! ## The start and the end -/

theorem AtStart.roaming {bad : StateId → Bool} (h : AtStart g c [alone F] bad r)
    (unannounced : r.journal.announcedViolations = []) : Roaming g c F r := by
  refine ⟨h.toAfoot, ?_, ?_, ?_⟩
  · simp [h.violations]
  · simp [h.violations, Journal.crossingsInto, h.crossings]
  · simp [h.violations, unannounced]

theorem AtStart.outside (h : AtStart g c [alone F] (fun s => decide (s ∈ F)) r) : 0 ∉ F := by
  simpa [h.fresh.visited] using h.good

/-- What holds of a run that entered forbidden states from all sides: its records tell the crossings
    into them, and no crossing is left to make. -/
structure Reported (g : StateGraph) (F : List StateId) (r : Run GraphEngine ForbiddenStates) : Prop where
  ledger : Ledger (g.sealed F) r.engine.visited r.journal.crossings []
  recorded : r.Recorded g F
  recalls : r.Recalls

end Run

/-! ## Whole runs -/

section Strategies

variable {g : StateGraph} {c : Config} {F : List StateId} {A : Audience GraphEngine ForbiddenStates}
  {r start : Run GraphEngine ForbiddenStates} {top : Frame} {rest : List Frame} {edge : Edge} {L : Type}
  [Listener GraphEngine ForbiddenStates L] {ls : List L} (hears : A.Hears c ls)
  (valid : g.validate = .ok ()) (continued : c.Continued g.size)

include hears valid continued

/-- A depth-first search asks to step back from a forbidden state and goes on. -/
theorem DepthFirst.attains_advance_forbidden {post : StopReason → Run GraphEngine ForbiddenStates → Prop}
    (roaming : r.Roaming g c F) (ready : Ready g c [alone F] F r)
    (reached : Reached g c [alone F] F A start .going r) (enters : Enters g r.engine top rest edge)
    (forbidden : edge.target ∈ F) (word : r.depth + 1 < wordLimit) :
    Attains (Mirrors c ls) (advance false) r
      (Led g c [alone F] F A (Run.Roaming g c F) start post (allowance (g.sealed F) r)) := by
  have deep := continued.deep
  have shallow := ready.depth_lt valid
  have crossings := Run.crossings_requested (A := A) (F := F) enters edge.target
  refine (attains_advance_struck hears ready.config continued.continues ready.notDone ready.properties
    enters.moved enters.state forbidden word (by omega)).imp ?_
  rintro _ _ ⟨rfl, rfl⟩
  have roaming := roaming.requested hears continued.continues enters forbidden ready.allowed
  have head := ready.struck (A := A) valid enters forbidden roaming.toAfoot rfl crossings rfl
  exact ⟨⟨rfl, roaming, head, reached.tail (.struck ready enters forbidden rfl crossings rfl)⟩,
    potential_lt (StateGraph.validate_sealed valid) enters head.ledger rfl crossings⟩

/-- A best-first search leaves a forbidden state without queueing it and goes on. -/
theorem BestFirst.attains_generate_forbidden {H : Type} [Heuristic H GraphEngine ForbiddenStates]
    {b : BestFirst H GraphEngine} {bound : Nat}
    {post : StopReason → BestFirst H GraphEngine × Run GraphEngine ForbiddenStates → Prop}
    (busy : Busy g c [alone F] F A (Run.Roaming g c F) start bound (b, r))
    (enters : Enters g r.engine top rest edge) (forbidden : edge.target ∈ F)
    (word : r.depth + 1 < wordLimit) :
    Attains (Tracks c ls) (generate ()) (b, r)
      (Generated g c [alone F] F A (Run.Roaming g c F) start post bound (b, r)) := by
  have expanding := busy.expanding
  have afoot := expanding.afoot
  have crossings := Run.crossings_dismissed (A := A) (F := F) enters edge.target
  have back : (Engine.backtrack (Engine.forward r.engine).2).1 = true :=
    congrArg Prod.fst (backtrack_onward (A := A) enters)
  refine (attains_generate_struck hears afoot.config continued.continues continued.plain afoot.matching
    afoot.notDone afoot.unprobed afoot.properties enters.moved enters.state forbidden word back).imp ?_
  rintro _ _ ⟨rfl, rfl⟩
  have roaming := busy.run.dismissed hears continued.continues continued.plain enters forbidden
    expanding.allowed
  have struck := expanding.struck hears valid enters forbidden roaming.toAfoot rfl crossings
  have frames := Run.frames_onward (A := A) enters
  exact busy.generated valid (Run.Roaming.persistent roaming struck.afoot (.retreated frames)) struck
    (.struck expanding enters forbidden rfl crossings) enters rfl crossings
    (Nat.add_le_add_left (Run.length_visited_onward enters) _)

variable (small : g.size < 2 ^ 63)

include small

/-- A depth-first run that goes on after violations comes to its end. -/
theorem DepthFirst.attains_run_continued (h : r.AtStart g c [alone F] (fun s => decide (s ∈ F)))
    (unannounced : r.journal.announcedViolations = []) : ∃ budget,
    Attains (Mirrors c ls) (run budget) r fun o q => ∃ (reason : StopReason)
        (q' : Run GraphEngine ForbiddenStates),
      (reason = .exhausted ∧ q'.Reported g F) ∧ o = q'.outcome reason ∧ q = q'.concluded A := by
  have unannounced' : (r.said A .searchStarted).journal.announcedViolations = [] :=
    (Run.announcedViolations_said .searchStarted nofun).trans unannounced
  refine attains_run_of_hits hears (ForbiddenStates.guards (E := GraphEngine) F 0) valid
    continued.toSpacious small Run.Roaming.persistent (by simp) ?_ ?_ ?_ h h.outside rfl
    ((h.said hears _).roaming unannounced') fun _ _ ⟨_, reported⟩ => reported.recalls
  · exact fun _ _ ready f hf => decide_eq_false (ready.allowed f hf)
  · intro r top rest edge roaming ready reached enters violated word
    exact attains_advance_forbidden hears valid continued roaming ready reached enters
      (of_decide_eq_true violated) word
  · intro r top roaming head _ left frames
    refine ⟨rfl, head.closed frames left, roaming.recorded.congr rfl ?_ ?_, Run.recalls_of_none rfl⟩
    · rw [Journal.crossingsInto, Run.crossings_stepBack]
      rfl
    · rw [Journal.announcedViolations]
      show ((r.journal.record _).bulletins.filter _).map _ = _
      simp [Entry.bulletin?, Journal.announcedViolations]

/-- A best-first run that goes on after violations comes to its end, whatever the heuristic. -/
theorem BestFirst.attains_run_continued {H : Type} [Heuristic H GraphEngine ForbiddenStates]
    (total : Heuristic.Total H GraphEngine ForbiddenStates) {b : BestFirst H GraphEngine}
    (h : r.AtStart g c [alone F] (fun s => decide (s ∈ F)))
    (unannounced : r.journal.announcedViolations = []) : ∃ budget,
    Attains (Tracks c ls) (run budget) (b, r) fun o q => ∃ (reason : StopReason)
        (q' : BestFirst H GraphEngine × Run GraphEngine ForbiddenStates),
      (reason = .exhausted ∧ q'.2.Reported g F) ∧ o = q'.2.outcome reason ∧
        q = (q'.1, q'.2.concluded A) := by
  let start := (r.said A .searchStarted).said A .stateStored
  have atStart : start.AtStart g c [alone F] _ := (h.said hears .searchStarted).said hears .stateStored
  have unannounced' : start.journal.announcedViolations = [] := by
    rw [Run.announcedViolations_said .stateStored nofun, Run.announcedViolations_said .searchStarted nofun,
      unannounced]
  refine attains_run_of_hits hears (ForbiddenStates.guards (E := GraphEngine) F 0) total valid
    continued.toSpacious small Run.Roaming.persistent (by simp) ?_ ?_ h h.outside rfl
    (atStart.roaming unannounced') ?_ fun _ _ ⟨_, reported⟩ => reported.recalls
  · exact fun _ _ _ expanding f hf => decide_eq_false (expanding.allowed f hf)
  · intro bound b r top rest edge busy enters violated word
    exact attains_generate_forbidden hears valid continued busy enters (of_decide_eq_true violated) word
  · exact fun _ _ resting empty => ⟨rfl, resting.rested.closed empty, resting.run.recorded,
      resting.run.recalls⟩

end Strategies

end Statewalk
