import Statewalk.Proofs.DepthRecords
import Statewalk.Proofs.DepthTracking
import Statewalk.Proofs.Expeditions
import Statewalk.Proofs.ViolationAccounts

/-! # Recorded depths in best-first search

A best-first search asks for newness after it entered a state, and only of states that it may queue or
that break a property.  The initial state is never entered in this way, so that no depth is recorded for
it, and a search that matches states by depth fails as soon as it comes back there.  It never fails so at
any other state.
-/

namespace Statewalk

/-! ## Returns -/

/-- Some transition of a reachable state leads back to the initial state. -/
def StateGraph.Returns (g : StateGraph) : Prop :=
  ∃ s, g.Reachable s ∧ ∃ tr ∈ g.outgoing s, tr.state = 0

theorem StateGraph.Returns.isEnd_root {g : StateGraph} (h : g.Returns) : g.isEnd 0 = false := by
  have left (s : StateId) (reachable : g.Reachable s) : s = 0 ∨ g.isEnd 0 = false := by
    induction reachable with
    | root => exact .inl rfl
    | step _ notEnd _ ih =>
      cases ih with
      | inl root => exact .inr (root ▸ notEnd)
      | inr open_ => exact .inr open_
  obtain ⟨s, reachable, tr, out, -⟩ := h
  cases left s reachable with
  | inl root =>
    subst root
    exact (mem_outgoing.1 out).1
  | inr open_ => exact open_

/-- Depths of unvisited states are asked for at the initial state only, and only after a return. -/
def Failure.OnlyAtRoot (g : StateGraph) (f : Failure) : Prop :=
  f.mentionsUnvisited = true → f = .unvisited 0 ∧ g.Returns

theorem Failure.OnlyAtRoot.of_other {g : StateGraph} {f : Failure} (h : f.mentionsUnvisited = false) :
    f.OnlyAtRoot g := by
  intro mentions
  rw [h] at mentions
  cases mentions

/-! ## Runs -/

namespace Run

variable {g : StateGraph} {bad : StateId → Bool} {r r' : Run GraphEngine Subject}

/-- The run matches by depth over the graph, nothing is ignored, and the initial state has no record. -/
structure Tracked (g : StateGraph) (bad : StateId → Bool) (r : Run GraphEngine Subject) : Prop where
  byDepth : r.config.matchByMinDepth = true
  matching : r.matching = true
  wellFormed : r.engine.WellFormed g
  vets : Vets g bad r.properties
  ignored : r.engine.ignored = []
  root : r.depths.contains 0 = false
  started : 0 ∈ r.engine.visited

/-- The search did not come back to the initial state.  All other visited states are recorded, but for
    end states that are not bad: these are never asked for. -/
structure Listed (g : StateGraph) (bad : StateId → Bool) (r : Run GraphEngine Subject) : Prop
    extends Tracked g bad r where
  unreturned : ∀ c ∈ r.journal.crossings, c.target ≠ 0
  listed : ∀ q ∈ r.engine.visited, q ≠ 0 →
    r.depths.contains q = true ∨ (g.isEnd q = true ∧ bad q = false)

/-- The search entered a state and did not ask for it yet. -/
structure Come (g : StateGraph) (bad : StateId → Bool) (r : Run GraphEngine Subject) : Prop
    extends Tracked g bad r where
  query : r.lastQuery = none
  violated : r.atViolation = bad r.engine.current
  returned : ∀ c ∈ r.journal.crossings, c.target = 0 → r.engine.current = 0
  returns : r.engine.current = 0 → r.engine.isNew = false ∧ g.Returns
  visit : r.engine.current ∈ r.engine.visited
  listed : ∀ q ∈ r.engine.visited, q ≠ 0 →
    r.depths.contains q = true ∨ (g.isEnd q = true ∧ bad q = false) ∨
      (q = r.engine.current ∧ r.engine.isNew = true)

theorem Tracked.congr (h : r.Tracked g bad) (config : r'.config = r.config)
    (matching : r'.matching = r.matching) (engine : r'.engine = r.engine)
    (properties : r'.properties = r.properties) (depths : r'.depths = r.depths) : r'.Tracked g bad := by
  constructor
  · rw [config]
    exact h.byDepth
  · rw [matching]
    exact h.matching
  · rw [engine]
    exact h.wellFormed
  · rw [properties]
    exact h.vets
  · rw [engine]
    exact h.ignored
  · rw [depths]
    exact h.root
  · rw [engine]
    exact h.started

theorem Listed.congr (h : r.Listed g bad) (tracked : r'.Tracked g bad)
    (visited : r'.engine.visited = r.engine.visited) (depths : r'.depths = r.depths)
    (crossings : r'.journal.crossings = r.journal.crossings) : r'.Listed g bad := by
  refine ⟨tracked, ?_, ?_⟩
  · rw [crossings]
    exact h.unreturned
  · rw [visited, depths]
    exact h.listed

/-- Only the engine, the records and the journal matter, and how states are matched and vetted. -/
theorem Listed.of_same (h : r.Listed g bad) (config : r'.config = r.config)
    (matching : r'.matching = r.matching) (engine : r'.engine = r.engine)
    (properties : r'.properties = r.properties) (depths : r'.depths = r.depths)
    (crossings : r'.journal.crossings = r.journal.crossings) : r'.Listed g bad := by
  refine h.congr (h.toTracked.congr config matching engine properties depths) ?_ depths crossings
  rw [engine]

theorem Listed.record {e : Entry} (h : r.Listed g bad) (silent : e.crossing? = none) :
    (r.record e).Listed g bad := by
  refine h.of_same rfl rfl rfl rfl rfl ?_
  show (r.journal.record e).crossings = _
  simp [silent]

theorem Come.record {e : Entry} (h : r.Come g bad) (silent : e.crossing? = none) :
    (r.record e).Come g bad := by
  refine ⟨h.toTracked.congr rfl rfl rfl rfl rfl, h.query, h.violated, ?_, h.returns, h.visit, h.listed⟩
  have kept : (r.record e).journal.crossings = r.journal.crossings := by
    show (r.journal.record e).crossings = _
    simp [silent]
  rw [kept]
  exact h.returned

/-! ## Asking -/

/-- A state that is bad or no end state can be asked for, unless it is the initial one. -/
theorem Come.listed_of_isNew {answer : Bool} (h : r.Come g bad) (asked : isNew r = .ok answer r') :
    r'.Listed g bad := by
  obtain ⟨cached, -⟩ | ⟨depths, -, judged, rfl⟩ := cases_of_isNew h.matching asked
  · obtain ⟨q, query, -⟩ := exists_of_cachedAnswer? cached
    rw [h.query] at query
    cases query
  have how := judged_judge h.byDepth
  rw [judged] at how
  -- The initial state is not new and has no record, so there is no answer for it.
  have elsewhere : r.engine.current ≠ 0 := by
    intro root
    obtain ⟨old, -⟩ := h.returns root
    have old : Engine.isNew r.engine = false := old
    have missing : r.depths.find? (Engine.stateId r.engine) = none := by
      have unrecorded := h.root
      rw [← root, DepthTable.contains_eq, Option.isSome_eq_false_iff, Option.isNone_iff_eq_none] at unrecorded
      exact unrecorded
    cases how with
    | recorded _ better =>
      obtain ⟨d, found, -⟩ := better old
      rw [missing] at found
      cases found
    | known _ found _ =>
      rw [missing] at found
      cases found
  have contains (q : StateId) :
      depths.contains q = true ↔ q = r.engine.current ∨ r.depths.contains q = true := by
    cases how with
    | recorded set _ => exact DepthTable.contains_set set
    | known _ found _ =>
      refine ⟨.inr, fun known => known.elim (fun current => ?_) id⟩
      have found : r.depths.find? r.engine.current = some _ := found
      simp [current, DepthTable.contains_eq, found]
  have root : depths.contains 0 = false := by
    rw [Bool.eq_false_iff, Ne, contains, h.root]
    simpa using elsewhere.symm
  refine ⟨⟨h.byDepth, h.matching, h.wellFormed, h.vets, h.ignored, root, h.started⟩, ?_, ?_⟩
  · exact fun c member target => elsewhere (h.returned c member target)
  · intro q member other
    rcases h.listed q member other with known | ends | ⟨current, -⟩
    · exact .inl ((contains q).2 (.inr known))
    · exact .inr ends
    · exact .inl ((contains q).2 (.inl current))

theorem Come.onlyAtRoot {f : Failure} (h : r.Come g bad)
    (ready : bad r.engine.current = true ∨ g.isEnd r.engine.current = false)
    (failed : isNew r = .error f r') : f.OnlyAtRoot g := by
  have how := judged_judge h.byDepth
  rw [judge_of_isNew_error h.matching failed] at how
  cases how with
  | full fault => exact .of_other rfl
  | unrecorded old missing =>
    have old : r.engine.isNew = false := old
    have missing : r.depths.find? r.engine.current = none := missing
    by_cases root : r.engine.current = 0
    · intro _
      refine ⟨?_, (h.returns root).2⟩
      show Failure.unvisited r.engine.current = _
      rw [root]
    · rcases h.listed _ h.visit root with known | ⟨isEnd, good⟩ | ⟨-, new⟩
      · simp [DepthTable.contains_eq, missing] at known
      · simp [isEnd, good] at ready
      · rw [old] at new
        cases new

/-- An end state that is not bad is passed without a question. -/
theorem Come.listed_of_isEnd (h : r.Come g bad) (good : bad r.engine.current = false)
    (isEnd : g.isEnd r.engine.current = true) : r.Listed g bad := by
  have elsewhere : r.engine.current ≠ 0 := by
    intro root
    have open_ := (h.returns root).2.isEnd_root
    rw [root, open_] at isEnd
    cases isEnd
  refine ⟨h.toTracked, fun c member target => elsewhere (h.returned c member target), ?_⟩
  intro q member other
  rcases h.listed q member other with known | ends | ⟨rfl, -⟩
  · exact .inl known
  · exact .inr ends
  · exact .inr ⟨isEnd, good⟩

/-! ## Moves -/

theorem Listed.come (h : r.Listed g bad) {top : Frame} {rest : List Frame} {edge : Edge}
    (enters : GraphEngine.Enters g r.engine top rest edge) :
    r.stepped.checkProperties.2.Come g bad := by
  have engine := Run.engine_stepped_of_enters enters
  have wellFormed : r.stepped.engine.WellFormed g := engine ▸ enters.wellFormed
  have current : r.stepped.engine.current = edge.target := congrArg GraphEngine.current engine
  have isNew : r.stepped.engine.isNew = decide (edge.target ∉ r.engine.visited) :=
    congrArg GraphEngine.isNew engine
  have visited (q : StateId) :
      q ∈ r.stepped.engine.visited ↔ q = edge.target ∨ q ∈ r.engine.visited := by
    rw [engine, GraphEngine.mem_visited_enter]
  have ignored : r.stepped.engine.ignored = [] := by
    rw [engine]
    exact h.ignored
  have crossings : ∀ c ∈ r.stepped.journal.crossings, c.target = 0 → edge.target = 0 := by
    intro c member target
    rw [crossings_stepped_of_enters enters, List.mem_append, List.mem_singleton] at member
    cases member with
    | inl old => exact absurd target (h.unreturned c old)
    | inr new =>
      subst new
      exact target
  have returns (root : edge.target = 0) : r.stepped.engine.isNew = false ∧ g.Returns := by
    refine ⟨?_, top.state, ?_, edge.transition, enters.outgoing, root⟩
    · rw [isNew, root]
      simpa using h.started
    · have reachable := (h.wellFormed.route enters.frames).reachable
      rwa [GraphEngine.current_of_frames enters.frames] at reachable
  have listed : ∀ q ∈ r.stepped.engine.visited, q ≠ 0 → r.depths.contains q = true ∨
      (g.isEnd q = true ∧ bad q = false) ∨
        (q = r.stepped.engine.current ∧ r.stepped.engine.isNew = true) := by
    intro q member other
    by_cases seen : q ∈ r.engine.visited
    · exact (h.listed q seen other).imp_right .inl
    · have target : q = edge.target := ((visited q).1 member).resolve_right seen
      exact .inr (.inr ⟨target.trans current.symm, by rw [isNew, ← target]; simpa using seen⟩)
  have started : 0 ∈ r.stepped.engine.visited := (visited 0).2 (.inr h.started)
  have visit : r.stepped.engine.current ∈ r.stepped.engine.visited := (visited _).2 (.inl current)
  obtain ⟨ps, vets, ⟨good, checked⟩ | ⟨broken, w, checked⟩⟩ :=
    checkProperties_cases (r := r.stepped) wellFormed h.vets
  · rw [checked]
    refine ⟨⟨h.byDepth, h.matching, wellFormed, vets, ignored, h.root, started⟩, rfl, good.symm, ?_, ?_,
      visit, listed⟩
    · exact fun c member target => current.trans (crossings c member target)
    · exact fun root => returns (current.symm.trans root)
  · rw [checked]
    refine ⟨⟨h.byDepth, h.matching, wellFormed, vets, ignored, h.root, started⟩, rfl, broken.symm, ?_, ?_,
      visit, listed⟩
    · intro c member target
      have same : (Run.violate w { r.stepped with properties := ps }).journal.crossings =
          r.stepped.journal.crossings := by
        show (r.stepped.journal.record _).crossings = _
        simp [Entry.crossing?]
      rw [same] at member
      exact current.trans (crossings c member target)
    · exact fun root => returns (current.symm.trans root)

theorem Listed.stuck (h : r.Listed g bad) (stuck : Engine.forward r.engine = (false, r.engine.stall)) :
    r.stepped.checkProperties.2.Listed g bad := by
  have engine := Run.engine_stepped_of_stuck stuck
  have wellFormed : r.stepped.engine.WellFormed g := engine ▸ h.wellFormed.stall
  have ignored : r.stepped.engine.ignored = [] := by rw [engine]; exact h.ignored
  have started : 0 ∈ r.stepped.engine.visited := by rw [engine]; exact h.started
  have visited : r.stepped.engine.visited = r.engine.visited := by rw [engine]; rfl
  have crossings := crossings_stepped_of_stuck stuck
  obtain ⟨ps, vets, ⟨-, checked⟩ | ⟨-, w, checked⟩⟩ :=
    checkProperties_cases (r := r.stepped) wellFormed h.vets
  · rw [checked]
    exact h.congr ⟨h.byDepth, h.matching, wellFormed, vets, ignored, h.root, started⟩ visited rfl crossings
  · rw [checked]
    refine h.congr ⟨h.byDepth, h.matching, wellFormed, vets, ignored, h.root, started⟩ visited rfl ?_
    rw [← crossings]
    show (r.stepped.journal.record _).crossings = _
    simp [Entry.crossing?]

theorem Listed.stepBack (h : r.Listed g bad) : r.forgetQuery.stepBack.2.Listed g bad := by
  have crossings := Run.crossings_stepBack r
  obtain ⟨top, rest, frames⟩ := h.wellFormed.exists_frames
  cases rest with
  | nil =>
    exact h.of_same rfl rfl (Run.engine_stepBack_of_root frames) rfl rfl crossings
  | cons below rest =>
    have engine := Run.engine_stepBack_of_frames frames
    refine h.congr ⟨h.byDepth, h.matching, ?_, h.vets, ?_, h.root, ?_⟩ ?_ rfl crossings
    all_goals rw [engine]
    · exact h.wellFormed.backtrack frames
    · exact h.ignored
    · exact h.started
    · rfl

/-- To return to a snapshot visits nothing. -/
theorem Listed.stepTo (h : r.Listed g bad) {snapshot : Snapshot GraphEngine.Saved}
    (genuine : GraphEngine.Genuine g snapshot) : (r.stepTo snapshot).2.Listed g bad := by
  obtain ⟨e, wellFormed, rfl⟩ := genuine
  have graph := h.wellFormed.graph
  have restored : (Engine.restore e.snapshot r.engine).2.WellFormed g := by
    refine ⟨graph, wellFormed.stacked, wellFormed.application, ?_⟩
    rw [← graph]
    rfl
  refine h.congr ⟨h.byDepth, h.matching, restored, h.vets, h.ignored, h.root, h.started⟩ rfl rfl ?_
  show (r.journal.record _).crossings = _
  simp [Entry.crossing?]

end Run

/-! ## Operations -/

namespace Search

variable {L : Type} {g : StateGraph} {bad : StateId → Bool}
  {J : Run GraphEngine Subject → Prop}

/-- Nobody listens, and depths are asked for in vain at the initial state only. -/
def GoesOn (g : StateGraph) {α : Type} (J : Run GraphEngine Subject → Prop)
    (x : SearchM GraphEngine Subject L α) (K : α → Run GraphEngine Subject → Prop) : Prop :=
  Proceeds (fun _ => True) (Failure.OnlyAtRoot g) (fun _ => False) J x K

theorem goesOn_forward : GoesOn (L := L) g (Run.Listed g bad) forward fun moved r =>
    if moved then r.Come g bad else r.Listed g bad := by
  apply Proceeds.bind (K := fun _ r => ∃ r₀, Run.Listed g bad r₀ ∧
    r = { r₀ with atViolation := false, lastQuery := none })
  · exact .change fun r h => ⟨r, h, rfl⟩
  intro _
  apply Proceeds.bind (K := fun moved r => ∃ r₀, Run.Listed g bad r₀ ∧
    moved = (Engine.forward r₀.engine).1 ∧ r = r₀.stepped)
  · apply Proceeds.update
    rintro _ ⟨r, h, rfl⟩
    rw [Run.stepForward_eq]
    exact ⟨r, h, rfl, rfl⟩
  intro moved
  apply Proceeds.bind (K := fun _ r => if moved then r.Come g bad else r.Listed g bad)
  · apply Proceeds.update
    rintro _ ⟨r, h, rfl, rfl⟩
    obtain ⟨top, rest, frames⟩ := h.wellFormed.exists_frames
    obtain ⟨edge, enters⟩ | ⟨-, stuck⟩ := h.wellFormed.forward_cases frames
    · simpa [enters.forward] using h.come enters
    · simpa [stuck] using h.stuck stuck
  exact fun _ => .pure fun _ h => h

theorem goesOn_descend :
    GoesOn (L := L) g (Run.Come g bad) (onRun Run.descend) fun _ => Run.Come g bad := by
  apply ensures_onRun
  apply Ensures.get
  intro r h
  unfold addWords
  split_ifs
  · refine .set (.pure fun _ eq => eq ▸ ?_)
    exact ⟨h.toTracked.congr rfl rfl rfl rfl rfl, h.query, h.violated, h.returned, h.returns, h.visit,
      h.listed⟩
  · exact .throw fun _ _ => ⟨trivial, .of_other rfl⟩

theorem goesOn_ascend :
    GoesOn (L := L) g (Run.Listed g bad) (onRun Run.ascend) fun _ => Run.Listed g bad := by
  apply ensures_onRun
  apply Ensures.get
  intro r h
  split
  · exact .throw fun _ _ => ⟨trivial, .of_other rfl⟩
  · refine .set (.pure fun _ eq => eq ▸ ?_)
    exact h.of_same rfl rfl rfl rfl rfl rfl

theorem goesOn_isNew : GoesOn (L := L) g
    (fun r => r.Come g bad ∧ (bad r.engine.current = true ∨ g.isEnd r.engine.current = false)) isNew
    fun _ => Run.Listed g bad := by
  apply ensures_onRun
  rintro r ⟨h, ready⟩
  cases asked : Run.isNew r with
  | ok answer r' => exact h.listed_of_isNew asked
  | error f r' => exact ⟨trivial, h.onlyAtRoot ready asked⟩

theorem goesOn_backtrack :
    GoesOn (L := L) g (Run.Listed g bad) backtrack fun _ => Run.Listed g bad := by
  apply Proceeds.bind (K := fun _ r => ∃ r₀, Run.Listed g bad r₀ ∧ r = r₀.forgetQuery)
  · exact .change fun r h => ⟨r, h, rfl⟩
  intro _
  apply Proceeds.update
  rintro _ ⟨r, h, rfl⟩
  exact h.stepBack

theorem goesOn_restore {snapshot : Snapshot GraphEngine.Saved} (genuine : GraphEngine.Genuine g snapshot)
    (strategy : String) : GoesOn (L := L) g (Run.Listed g bad)
      (restore (E := GraphEngine) snapshot strategy) fun _ => Run.Listed g bad := by
  apply Proceeds.bind (.change (M := Run.Listed g bad) fun r h => ?_)
  · intro _
    apply Proceeds.bind (.update (K := fun _ => Run.Listed g bad) fun r h => h.stepTo genuine)
    intro accepted
    split
    · exact .change fun r h => h.of_same rfl rfl rfl rfl rfl rfl
    · exact Ensures.throw fun _ hs => hs.imp fun _ _ => ⟨trivial, .of_other rfl⟩
  · exact h.of_same rfl rfl rfl rfl rfl rfl

variable [Listener GraphEngine Subject L]

/-- An announcement that nobody hears is an entry in the journal. -/
theorem goesOn_announce (event : Event)
    (kept : ∀ (r : Run GraphEngine Subject) b, J r → J (r.record (.announced b))) :
    GoesOn (L := L) g J (announce event) fun _ => J := by
  intro s hs
  have listeners : s.listeners = [] := List.eq_nil_iff_forall_not_mem.2 hs.listeners
  have reporter : s.reporter = none := Option.eq_none_iff_forall_not_mem.2 hs.reporter
  simp only [announce, bind, EStateM.bind, modify, modifyGet, MonadStateOf.modifyGet,
    EStateM.modifyGet_apply, broadcast, listeners, Listener.tellAll, reporter]
  exact ⟨by simp, by simp, kept _ _ hs.run⟩

theorem goesOn_announceConstraint (details : String) :
    GoesOn (L := L) g (Run.Listed g bad) (announceConstraint details) fun _ => Run.Listed g bad := by
  apply Proceeds.bind (.change (M := Run.Listed g bad) fun r h => ?_)
  · exact fun _ => goesOn_announce _ fun r b h => h.record rfl
  · exact h.of_same rfl rfl rfl rfl rfl rfl

theorem goesOn_pollProbe :
    GoesOn (L := L) g (Run.Listed g bad) pollProbe fun _ => Run.Listed g bad := by
  apply Proceeds.bind (.update (K := fun _ => Run.Listed g bad) fun r h => ?_)
  · intro requested
    split
    · exact goesOn_announce _ fun r b h => h.record rfl
    · exact .pure fun _ h => h
  · exact h.of_same rfl rfl rfl rfl rfl rfl

theorem goesOn_announceViolation :
    GoesOn (L := L) g (Run.Listed g bad) announceViolation fun _ => Run.Listed g bad := by
  apply Proceeds.bind (goesOn_announce _ fun r b h => h.record rfl)
  intro _
  apply Proceeds.bind proceeds_look
  intro continues
  split
  · apply Proceeds.change
    intro r h
    exact h.congr ⟨h.byDepth, h.matching, h.wellFormed, h.vets.reset, h.ignored, h.root, h.started⟩ rfl rfl rfl
  · exact .pure fun _ h => h

end Search

/-! ## Best-first search -/

namespace BestFirst

open Search

variable {H L : Type} {α β : Type} {g : StateGraph} {bad : StateId → Bool}
  {J : Run GraphEngine Subject → Prop} {K : α → Run GraphEngine Subject → Prop}

/-- As `Search.GoesOn`, and all queued snapshots are genuine. -/
def GoesOn (g : StateGraph) (J : Run GraphEngine Subject → Prop)
    (x : ExpeditionM H GraphEngine Subject L α) (K : α → Run GraphEngine Subject → Prop) : Prop :=
  Ensures (Provided (GraphEngine.Genuine g) (fun _ => False) J) x
    (fun a => Provided (GraphEngine.Genuine g) (fun _ => False) (K a)) fun f _ => f.OnlyAtRoot g

namespace GoesOn

theorem pure {a : α} (h : ∀ r, J r → K a r) :
    GoesOn g J (Pure.pure a : ExpeditionM H GraphEngine Subject L α) K :=
  Ensures.pure fun _ hs => hs.imp h

theorem bind {x : ExpeditionM H GraphEngine Subject L α} {f : α → ExpeditionM H GraphEngine Subject L β}
    {M : β → Run GraphEngine Subject → Prop} (hx : GoesOn g J x K) (hf : ∀ a, GoesOn g (K a) (f a) M) :
    GoesOn g J (x >>= f) M :=
  Ensures.bind hx hf

theorem of_imp {I : Run GraphEngine Subject → Prop} {x : ExpeditionM H GraphEngine Subject L α}
    (hx : GoesOn g J x K) (h : ∀ r, I r → J r) : GoesOn g I x K :=
  Ensures.of_imp hx fun _ hs => hs.imp h

theorem onSearch {x : SearchM GraphEngine Subject L α} (h : Search.GoesOn g J x K) :
    GoesOn g J (BestFirst.onSearch x : ExpeditionM H GraphEngine Subject L α) K := by
  have lifted := ensures_onSearch h
    fun b : BestFirst H GraphEngine => ∀ e ∈ b.frontier.entries, GraphEngine.Genuine g e.2.snapshot
  apply ((lifted.of_imp fun _ hs => ⟨hs.search, hs.queued⟩).imp _).imp_fail
  · exact fun f x hx => hx.run.2
  · exact fun _ _ hs => ⟨hs.1, hs.2⟩

theorem look {f : Run GraphEngine Subject → α} :
    GoesOn g J (BestFirst.look f : ExpeditionM H GraphEngine Subject L α) fun a r => J r ∧ f r = a :=
  fun _ hs => ⟨⟨hs.search.listeners, hs.search.reporter, hs.search.run, rfl⟩, hs.queued⟩

/-- A loop keeps the records, and to spend its budget is no question. -/
theorem loop {ifDone : β} {iterate : α → ExpeditionM H GraphEngine Subject L (Turn α β)}
    (step : ∀ a, GoesOn g J (iterate a) fun _ => J) (budget : Nat) (a : α) :
    GoesOn g J (Statewalk.loop (·.search.run.done) ifDone iterate budget a) fun _ => J :=
  Ensures.loop_invariant (fun _ _ => .of_other rfl) step budget a

end GoesOn

variable [Heuristic H GraphEngine Subject]

theorem goesOn_offerCurrent :
    GoesOn g (Run.Listed g bad) (offerCurrent : ExpeditionM H GraphEngine Subject L Bool)
      fun _ => Run.Listed g bad := by
  intro x hx
  obtain ⟨stored, strategy, snapshot, offered, made, -, queued⟩ | unsupported | ⟨fault, -, failed⟩ :=
    offerCurrent_cases x
  · rw [offered]
    refine ⟨hx.search, ?_⟩
    intro e member
    cases queued e member with
    | inl new =>
      cases made
      exact new ▸ ⟨_, hx.search.run.wellFormed, rfl⟩
    | inr old => exact hx.queued e old
  · rw [unsupported]
    exact .of_other rfl
  · rw [failed]
    exact .of_other rfl

variable [Listener GraphEngine Subject L]

theorem goesOn_store :
    GoesOn g (Run.Listed g bad) (store : ExpeditionM H GraphEngine Subject L Unit)
      fun _ => Run.Listed g bad := by
  apply GoesOn.bind goesOn_offerCurrent
  intro stored
  split
  · exact .onSearch (goesOn_announce _ fun r b h => h.record rfl)
  · exact .pure fun _ h => h

theorem goesOn_storeWithinLimit :
    GoesOn g (Run.Listed g bad) (storeWithinLimit : ExpeditionM H GraphEngine Subject L Unit)
      fun _ => Run.Listed g bad := by
  apply Ensures.get
  intro x hx
  refine Ensures.of_eq ?_ hx
  split
  · exact GoesOn.bind (.onSearch (goesOn_announceConstraint _)) fun _ => goesOn_store
  · exact goesOn_store

theorem goesOn_consider : GoesOn g
    (fun r => r.Come g bad ∧ (bad r.engine.current = true ∨ g.isEnd r.engine.current = false))
    (consider : ExpeditionM H GraphEngine Subject L Unit) fun _ => Run.Listed g bad := by
  have looked {α : Type} (f : Run GraphEngine Subject → α) : GoesOn (H := H) (L := L) g (Run.Listed g bad)
      (look f) fun _ => Run.Listed g bad := GoesOn.look.imp fun _ _ h => h.imp fun _ h => h.1
  apply GoesOn.bind (.onSearch goesOn_isNew)
  intro isNew
  apply GoesOn.bind (looked _)
  intro limit
  apply GoesOn.bind (looked _)
  intro depth
  split
  · exact .onSearch (goesOn_announceConstraint _)
  · apply GoesOn.bind (looked _)
    intro sensitive
    split
    · exact goesOn_storeWithinLimit
    · exact .pure fun _ h => h

theorem goesOn_receive :
    GoesOn g (Run.Come g bad) (receive : ExpeditionM H GraphEngine Subject L Bool)
      fun _ => Run.Listed g bad := by
  have flagged {α : Type} {f : Run GraphEngine Subject → α × Run GraphEngine Subject}
      (same : ∀ r, (f r).2.config = r.config ∧ (f r).2.matching = r.matching ∧
        (f r).2.engine = r.engine ∧ (f r).2.properties = r.properties ∧ (f r).2.depths = r.depths ∧
        (f r).2.journal = r.journal) :
      Search.GoesOn (L := L) g (Run.Listed g bad) (update f) fun _ => Run.Listed g bad := by
    apply Proceeds.update
    intro r h
    obtain ⟨config, matching, engine, properties, depths, journal⟩ := same r
    exact h.of_same config matching engine properties depths (by rw [journal])
  apply GoesOn.bind GoesOn.look
  intro violated
  cases violated with
  | true =>
    -- A bad state is asked for, whether or not it is an end state.
    have asked : Search.GoesOn (L := L) g
        (fun r => r.Come g bad ∧ (bad r.engine.current = true ∨ g.isEnd r.engine.current = false))
        isNew fun _ => Run.Listed g bad := goesOn_isNew
    apply GoesOn.bind
    · apply (GoesOn.onSearch asked).of_imp
      rintro r ⟨h, violated⟩
      exact ⟨h, .inl (h.violated.symm.trans violated)⟩
    intro _
    apply GoesOn.bind (.onSearch goesOn_announceViolation)
    intro _
    apply GoesOn.bind (.onSearch (flagged fun r => ?_))
    · intro ends
      split
      · exact .pure fun _ h => h
      · apply GoesOn.bind (.onSearch (flagged fun r => ⟨rfl, rfl, rfl, rfl, rfl, rfl⟩))
        exact fun _ => .pure fun _ h => h
    · unfold Run.endsAtViolation
      split_ifs <;> exact ⟨rfl, rfl, rfl, rfl, rfl, rfl⟩
  | false =>
    apply GoesOn.bind GoesOn.look
    intro engine
    split
    · rename_i left
      refine .pure fun r h => ?_
      obtain ⟨⟨come, unviolated⟩, rfl⟩ := h
      have isEnd : g.isEnd r.engine.current = true := by
        simpa [Engine.isEnd, Engine.isIgnored, come.ignored, come.wellFormed.graph] using left
      exact come.listed_of_isEnd (come.violated.symm.trans unviolated) isEnd
    · rename_i stays
      apply GoesOn.bind
      · apply goesOn_consider.of_imp
        rintro r ⟨⟨come, -⟩, rfl⟩
        refine ⟨come, .inr ?_⟩
        simpa [Engine.isEnd, Engine.isIgnored, come.ignored, come.wellFormed.graph] using stays
      · exact fun _ => .pure fun _ h => h

omit [Heuristic H GraphEngine Subject] in
theorem goesOn_leave :
    GoesOn g (Run.Listed g bad)
      (leave : ExpeditionM H GraphEngine Subject L (Turn Unit (Option StopReason)))
      fun _ => Run.Listed g bad := by
  have measured : Search.GoesOn (L := L) g (Run.Listed g bad) (update Run.hasMemory)
      fun _ => Run.Listed g bad := by
    refine .update fun r h => Run.kept_hasMemory (J := Run.Listed g bad) ?_ ?_ ?_ h
    · exact fun r m h => h.of_same rfl rfl rfl rfl rfl rfl
    · exact fun r _ _ h => h.record rfl
    · exact fun r _ h => h.record rfl
  apply GoesOn.bind (.onSearch measured)
  intro enough
  split
  · apply GoesOn.bind (.onSearch goesOn_backtrack)
    intro moved
    split
    · apply GoesOn.bind (.onSearch goesOn_ascend)
      intro _
      apply GoesOn.bind (.onSearch (goesOn_announce _ fun r b h => h.record rfl))
      exact fun _ => .pure fun _ h => h
    · exact .pure fun _ h => h
  · apply GoesOn.bind (.onSearch (Proceeds.bind proceeds_look fun _ => goesOn_announceConstraint _))
    exact fun _ => .pure fun _ h => h

theorem goesOn_generate :
    GoesOn g (Run.Listed g bad)
      (generate () : ExpeditionM H GraphEngine Subject L (Turn Unit (Option StopReason)))
      fun _ => Run.Listed g bad := by
  apply GoesOn.bind (.onSearch goesOn_pollProbe)
  intro _
  apply GoesOn.bind (.onSearch goesOn_forward)
  intro moved
  cases moved with
  | true =>
    apply GoesOn.bind (.onSearch goesOn_descend)
    intro _
    apply GoesOn.bind (.onSearch (goesOn_announce _ fun r b h => h.record rfl))
    intro _
    apply GoesOn.bind goesOn_receive
    intro ends
    split
    · exact .pure fun _ h => h
    · exact goesOn_leave
  | false =>
    apply GoesOn.bind (.onSearch (goesOn_announce _ fun r b h => h.record rfl))
    exact fun _ => .pure fun _ h => h

theorem goesOn_expand (budget : Nat) :
    GoesOn g (Run.Listed g bad)
      (expand budget : ExpeditionM H GraphEngine Subject L (Option StopReason))
      fun _ => Run.Listed g bad :=
  .loop (fun _ => goesOn_generate) budget ()

theorem goesOn_expandBest (budget : Nat) :
    GoesOn g (Run.Listed g bad)
      (expandBest budget () : ExpeditionM H GraphEngine Subject L (Turn Unit StopReason))
      fun _ => Run.Listed g bad := by
  apply Ensures.get
  intro x hx
  cases popped : x.strategy.frontier.pop? with
  | none =>
    apply Ensures.pure
    rintro _ rfl
    exact hx
  | some best =>
    obtain ⟨⟨key, member⟩, rest, -⟩ := Frontier.mem_of_pop? popped
    have provided : Provided (GraphEngine.Genuine g) (fun _ => False) (Run.Listed g bad)
        { x with strategy := { x.strategy with frontier := best.2 } } :=
      ⟨hx.search, fun e member => hx.queued e (rest member)⟩
    apply Ensures.set
    refine Ensures.of_eq ?_ provided
    apply GoesOn.bind (.onSearch (.change (M := Run.Listed g bad) fun r h => h.record rfl))
    intro _
    apply GoesOn.bind (.onSearch (goesOn_restore (hx.queued _ member) name))
    intro _
    apply GoesOn.bind (.onSearch (goesOn_announce _ fun r b h => h.record rfl))
    intro _
    apply GoesOn.bind (goesOn_expand budget)
    intro reason
    cases reason with
    | some reason => exact .pure fun _ h => h
    | none => exact .pure fun _ h => h

/-- Whatever was queued before is forgotten first. -/
theorem ensures_listed (budget : Nat) :
    Ensures (fun x => x.search.Heeded (fun _ => False) (Run.Listed g bad))
      (explore budget : ExpeditionM H GraphEngine Subject L StopReason)
      (fun _ => Provided (GraphEngine.Genuine g) (fun _ => False) (Run.Listed g bad))
      fun f _ => f.OnlyAtRoot g := by
  have finished (reason : StopReason) : GoesOn (H := H) (L := L) g (Run.Listed g bad) (do
      onSearch (announce .searchFinished)
      return reason) fun _ => Run.Listed g bad := by
    apply GoesOn.bind (.onSearch (goesOn_announce _ fun r b h => h.record rfl))
    exact fun _ => .pure fun _ h => h
  have cleared : Ensures (fun x => x.search.Heeded (fun _ => False) (Run.Listed g bad))
      (modify fun x : Expedition H GraphEngine Subject L => { x with strategy := x.strategy.clear })
      (fun _ => Provided (GraphEngine.Genuine g) (fun _ => False) (Run.Listed g bad))
      fun f _ => f.OnlyAtRoot g :=
    .modifying fun x hx => ⟨hx, by simp [clear]⟩
  apply cleared.bind
  intro _
  apply GoesOn.bind (J := Run.Listed g bad) (K := fun _ => Run.Listed g bad)
  · exact .onSearch (.change fun r h => h.of_same rfl rfl rfl rfl rfl rfl)
  intro _
  apply GoesOn.bind (.onSearch (goesOn_announce _ fun r b h => h.record rfl))
  intro _
  apply GoesOn.bind goesOn_store
  intro _
  refine GoesOn.bind (J := Run.Listed g bad) (K := fun _ => Run.Listed g bad) ?_ fun _ => ?_
  · apply Ensures.modifying
    intro x hx
    split
    · rename_i popped
      obtain ⟨-, rest, -⟩ := Frontier.mem_of_pop? popped
      exact ⟨hx.search, fun e member => hx.queued e (rest member)⟩
    · exact hx
  apply GoesOn.bind (goesOn_expand budget)
  intro reason
  cases reason with
  | some reason => exact finished reason
  | none => exact GoesOn.bind (.loop (fun _ => goesOn_expandBest budget) budget ()) finished

end BestFirst

theorem Run.Listed.of_fresh {g : StateGraph} {r : Run GraphEngine Subject} (fresh : r.engine.Fresh g)
    (byDepth : r.config.matchByMinDepth = true)
    (static : ∀ w ∈ r.properties, w.property.isStatic = true) (unrecorded : r.depths = {})
    (uncrossed : r.journal.crossings = []) :
    Listed g (fun s => r.properties.any fun w => w.property.breaksAt g s) { r with matching := true } := by
  refine ⟨⟨byDepth, rfl, fresh.wellFormed, ⟨static, fun _ => rfl⟩, fresh.ignored, ?_, ?_⟩, ?_, ?_⟩
  · simp [unrecorded, DepthTable.contains_eq]
  · simp [fresh.visited]
  · simp [uncrossed]
  · intro q member other
    rw [fresh.visited, List.mem_singleton] at member
    exact absurd member other

/-- A best-first search that matches states by depth, over a graph with its edges in any order, with any
    heuristic and configuration, properties of states and no listeners, asks for the depth of an
    unvisited state only if it comes back to the initial state.  It does not come back there without
    failing. -/
theorem best_first_search_records_all_but_root {H L : Type} [Heuristic H GraphEngine Subject]
    [Listener GraphEngine Subject L] {g : StateGraph} {s : Search GraphEngine Subject L}
    (listeners : s.listeners = []) (reporter : s.reporter = none) (fresh : s.run.engine.Fresh g)
    (byDepth : s.run.config.matchByMinDepth = true)
    (static : ∀ w ∈ s.run.properties, w.property.isStatic = true) (unrecorded : s.run.depths = {})
    (uncrossed : s.run.journal.crossings = []) (b : BestFirst H GraphEngine) (budget : Nat) :
    Ensures (· = { strategy := b, search := s }) (BestFirst.run budget)
      (fun _ x => ∀ c ∈ x.search.run.journal.crossings, c.target ≠ 0)
      fun f _ => f.mentionsUnvisited = true → f = .unvisited 0 ∧ g.Returns := by
  let bad (q : StateId) : Bool := s.run.properties.any fun w => w.property.breaksAt g q
  let start (r : Run GraphEngine Subject) : Prop := Run.Listed g bad { r with matching := true }
  have recorded (r : Run GraphEngine Subject) (e : Entry) (silent : e.crossing? = none) (h : start r) :
      start (r.record e) := Run.Listed.record (r := { r with matching := true }) h silent
  have launched : Search.GoesOn (L := L) g start (Search.launch BestFirst.name)
      fun _ => Run.Listed g bad := by
    have rest : Search.GoesOn (L := L) g start (do
        Search.change (Run.record (.launched BestFirst.name))
        Search.change fun r => { r with matching := true }) fun _ => Run.Listed g bad :=
      Search.Proceeds.bind (.change fun r => recorded r _ rfl) fun _ => .change fun _ h => h
    apply Search.Proceeds.bind Search.proceeds_look
    intro unguarded
    split
    · exact Search.Proceeds.bind (.change fun r => recorded r _ rfl) fun _ => rest
    · exact rest
  have begun : s.Heeded (fun _ => False) start :=
    ⟨by simp [listeners], by simp [reporter], .of_fresh fresh byDepth static unrecorded uncrossed⟩
  have ran : Ensures (fun x : Expedition H GraphEngine Subject L => x.search.Heeded (fun _ => False) start)
      (BestFirst.run budget) (fun _ x => ∀ c ∈ x.search.run.journal.crossings, c.target ≠ 0)
      fun f _ => f.OnlyAtRoot g := by
    apply Ensures.bind ((BestFirst.ensures_onSearch_alone launched).imp_fail fun f x hx => hx.run.2)
    intro _
    have explored : Ensures (fun x => x.search.Heeded (fun _ => False) (Run.Listed g bad))
        (BestFirst.explore budget : ExpeditionM H GraphEngine Subject L StopReason)
        (fun _ => BestFirst.Provided (GraphEngine.Genuine g) (fun _ => False) (Run.Listed g bad))
        fun f _ => f.OnlyAtRoot g := BestFirst.ensures_listed budget
    apply explored.bind
    intro reason
    have concluded : Search.GoesOn (L := L) g (Run.Listed g bad) (Search.conclude reason)
        fun _ => Run.Listed g bad :=
      Search.Proceeds.bind (.change fun r h => h.of_same rfl rfl rfl rfl rfl rfl) fun _ =>
        Search.proceeds_look
    apply ((BestFirst.GoesOn.onSearch concluded).imp _).imp_fail
    · exact fun f _ h => h
    · exact fun _ x hx => hx.search.run.unreturned
  exact Ensures.of_eq ran begun

theorem tangle_recorded_but_root : ∃ e s, GraphEngine.ofGraph .tangle = .ok e ∧
    Search.ofEngine (e.withRandomChoices 3) { continueOnViolation := true, matchByMinDepth := true } = .ok s ∧
    ∀ budget,
      let t : Search GraphEngine Subject (RuleListener Subject) := s.addProperty (.forbidden { states := [2] })
      Ensures (· = { strategy := { heuristic := (⟨⟩ : DeepestFirst) }, search := t }) (BestFirst.run budget)
        (fun _ x => ∀ c ∈ x.search.run.journal.crossings, c.target ≠ 0)
        fun f _ => f.mentionsUnvisited = true → f = .unvisited 0 ∧ StateGraph.tangle.Returns := by
  obtain ⟨e, made⟩ : ∃ e, GraphEngine.ofGraph .tangle = .ok e := ⟨_, rfl⟩
  have fresh := (GraphEngine.fresh_ofGraph made).withRandomChoices 3
  refine ⟨e, .fresh (e.withRandomChoices 3) _, made, rfl, ?_⟩
  intro budget t
  have ready : t.run.engine.Fresh .tangle := fresh
  have properties : t.run.properties = [{ key := 0, property := .forbidden { states := [2] } }] := rfl
  exact best_first_search_records_all_but_root rfl rfl ready rfl
    (by simp [properties, Subject.isStatic]) rfl rfl _ budget

/-- Two states that lead to each other. -/
def StateGraph.cycle : StateGraph :=
  { name := "cycle"
    states := [{ edges := [{ target := 1, label := "a" }] }, { edges := [{ target := 0, label := "b" }] }] }

/-- A breadth-first search that matches by depth fails where a cycle leads back to the initial state. -/
theorem cycle_root_unrecorded : ∃ e s, GraphEngine.ofGraph .cycle = .ok e ∧
    (Search.ofEngine e { matchByMinDepth := true } :
      Except Failure (Search GraphEngine Subject (RuleListener Subject))) = .ok s ∧
    ∃ x, BestFirst.run 10 { strategy := { heuristic := (⟨⟩ : BreadthFirst) }, search := s } =
      .error (.unvisited 0) x := by
  refine ⟨_, .fresh _ { matchByMinDepth := true }, rfl, rfl, ?_⟩
  apply exists_error_of_check
  decide +kernel

end Statewalk
