import Statewalk.Proofs.JournalWalks
import Statewalk.Proofs.LoneSearches
import Statewalk.Strategy.RandomRestart

/-! # Random walks

What random restart does over a valid graph when nobody listens and the properties are predicates of
the current state: walks from the initial state, each within the depth limit, told by the journal one
after the other.  An iteration finds a run `Poised`; a step leaves it `Entered`, and a walk that is over
leaves it `Spent`, to be counted and then `Concluded`.
-/

namespace Statewalk

/-! ## Where a walk stands -/

namespace RandomRestart

open GraphEngine (Enters)

variable {P : Type}

/-- What stays the same while a search makes random walks. -/
structure Setting (P : Type) where
  graph : StateGraph
  config : Config
  admits : P → Prop
  holds : P → StateId → Bool
  /-- All properties hold in the state. -/
  good : StateId → Bool
  /-- The order of the edges of the initial state at the start. -/
  choices : List Nat
  /-- The engine makes no random choices. -/
  orderly : Prop
  /-- What the journal told before the search. -/
  before : List Entry

/-- The walk takes the first choice everywhere. -/
def Setting.Plain (w : Setting P) (lap : List Entry) : Prop :=
  strides lap = w.graph.firstStrides w.choices (strides lap).length

/-- Where a run stands in a walk, with the journal `es` so far, the walks `done` before this one, and
    what the journal tells of this one. -/
structure Stands (w : Setting P) (es : List Entry) (done : List (List Entry)) (cur : List Entry)
    (r : Run GraphEngine P) : Prop where
  wellFormed : r.engine.WellFormed w.graph
  config : r.config = w.config
  unprobed : r.probeRequested = false
  unrequested : r.backtrackRequested = false
  vouches : Vouches w.admits w.holds w.good r.properties
  journal : r.journal.entries = w.before ++ es
  logbook : Logbook w.graph w.good w.config.depthLimit es done cur
  lap : Lap w.graph w.good done.length cur r.engine.current
  depth : r.depth = (strides cur).length
  within : r.depth ≤ w.config.depthLimit
  atViolation : r.atViolation = !w.good r.engine.current
  isDone : r.done = (!w.good r.engine.current && !w.config.continueOnViolation)
  errors : r.violations.length = es.countP Entry.isViolation
  single : w.config.continueOnViolation = false →
    es.countP Entry.isViolation = if w.good r.engine.current then 0 else 1
  orderly : w.orderly → r.engine.random = none ∧ (∀ lap ∈ done, w.Plain lap) ∧ w.Plain cur

variable {w : Setting P} {es cur : List Entry} {done : List (List Entry)} {r : Run GraphEngine P}

theorem Stands.record (h : Stands w es done cur r) {e : Entry} (incidental : e.isIncidental = true) :
    Stands w (es ++ [e]) done (cur ++ [e]) (r.record e) := by
  have all : ∀ f ∈ [e], f.isIncidental = true := List.forall_mem_singleton.2 incidental
  have same : strides (cur ++ [e]) = strides cur := strides_append_incidental all
  have violations : (es ++ [e]).countP Entry.isViolation = es.countP Entry.isViolation :=
    violations_append_incidental all
  exact { h with
    journal := by rw [Run.record, Journal.entries_record, h.journal, List.append_assoc]
    logbook := h.logbook.incidental all
    lap := h.lap.incidental all
    depth := h.depth.trans (congrArg List.length same.symm)
    errors := h.errors.trans violations.symm
    single := fun single => violations.trans (h.single single)
    orderly := fun orderly => by
      rw [Setting.Plain, same]
      exact h.orderly orderly }

/-- Before an iteration: the walk may go on, from a state where nothing was tried yet. -/
structure Poised (w : Setting P) (es : List Entry) (done : List (List Entry)) (cur : List Entry)
    (r : Run GraphEngine P) : Prop extends Stands w es done cur r where
  good : w.good r.engine.current = true
  ahead : strides cur = [] ∨ w.graph.isEnd r.engine.current = false
  tries : cur.countP Entry.isForward = (strides cur).length
  uncounted : cur.filterMap Entry.walked? = []
  untried : ∃ top rest, r.engine.frames = top :: rest ∧ top.tried = 0 ∧
    (w.orderly → top.choices = if strides cur = [] then w.choices else GraphEngine.declared w.graph top.state)

/-- After a step: nothing was tried in the state that was entered, and if it is not good, the last
    entries tell of a violation and of the step. -/
structure Entered (w : Setting P) (es : List Entry) (done : List (List Entry)) (cur : List Entry)
    (r : Run GraphEngine P) : Prop extends Stands w es done cur r where
  moved : strides cur ≠ []
  tries : cur.countP Entry.isForward = (strides cur).length
  uncounted : cur.filterMap Entry.walked? = []
  untried : ∃ top rest, r.engine.frames = top :: rest ∧ top.tried = 0 ∧
    (w.orderly → top.choices = GraphEngine.declared w.graph top.state)
  told : w.good r.engine.current = false → ∃ front id name depth b,
    es = front ++ [.violated id name depth, .announced b] ∧ b.event = .stateAdvanced

/-- The walk came to its end and is to be counted. -/
structure Spent (w : Setting P) (es : List Entry) (done : List (List Entry)) (cur : List Entry)
    (r : Run GraphEngine P) : Prop extends Stands w es done cur r where
  halts : w.graph.Halts w.good w.config.depthLimit (strides cur).length r.engine.current
  tries : cur.countP Entry.isForward ≤ w.config.depthLimit
  uncounted : cur.filterMap Entry.walked? = []

/-- The walk was counted.  A search that ends with a violation counts no walk into one. -/
structure Concluded (w : Setting P) (es : List Entry) (done : List (List Entry)) (cur : List Entry)
    (r : Run GraphEngine P) : Prop extends Stands w es done cur r where
  complete : Lap.Complete w.graph w.good w.config.depthLimit done.length cur
  counted : Lap.Counted done.length cur
  kept : w.config.continueOnViolation = false → w.good r.engine.current = true

theorem Entered.spent (h : Entered w es done cur r)
    (halts : w.good r.engine.current = false ∨ w.graph.isEnd r.engine.current = true) :
    Spent w es done cur r :=
  { h with
    halts := halts.elim (fun bad => .inr (.inr bad)) .inl
    tries := by
      rw [h.tries, ← h.depth]
      exact h.within }

theorem Entered.poised (h : Entered w es done cur r) (good : w.good r.engine.current = true)
    (notEnd : w.graph.isEnd r.engine.current = false) : Poised w es done cur r := by
  obtain ⟨top, rest, frames, untried, order⟩ := h.untried
  refine { h with good, ahead := .inr notEnd, untried := ⟨top, rest, frames, untried, fun orderly => ?_⟩ }
  rw [if_neg h.moved]
  exact order orderly

theorem Spent.complete (h : Spent w es done cur r) :
    Lap.Complete w.graph w.good w.config.depthLimit done.length cur where
  lap := ⟨_, h.lap, h.halts⟩
  within := h.depth ▸ h.within
  tries := h.tries

theorem Spent.conclude (h : Spent w es done cur r)
    (kept : w.config.continueOnViolation = false → w.good r.engine.current = true) :
    Concluded w (es ++ [.walked (done.length + 1) r.depth]) done (cur ++ [.walked (done.length + 1) r.depth])
      (r.record (.walked (done.length + 1) r.depth)) := by
  have all : ∀ f ∈ [Entry.walked (done.length + 1) r.depth], f.isIncidental = true :=
    List.forall_mem_singleton.2 rfl
  refine { h.toStands.record rfl with complete := h.complete.incidental all rfl, counted := ?_, kept }
  rw [Lap.Counted, strides_append_incidental all, List.filterMap_append, h.uncounted, ← h.depth]
  rfl

section Lawful

variable [Checkable GraphEngine P]

/-- What random walks rest on. -/
structure Setting.Lawful (w : Setting P) (start : GraphEngine) : Prop where
  valid : w.graph.validate = .ok ()
  fresh : start.Fresh w.graph
  frames : start.frames = [{ state := 0, choices := w.choices }]
  pointwise : Checkable.Pointwise w.graph w.admits w.holds
  root : w.good 0 = true
  positive : 1 ≤ w.config.depthLimit
  representable : w.config.depthLimit < wordLimit

variable {start : GraphEngine} (lawful : w.Lawful start)

include lawful

theorem Setting.Lawful.pathLength_start : start.snapshot.pathLength = 0 := by
  show start.frames.length - 1 = 0
  rw [lawful.frames]
  rfl

omit lawful [Checkable GraphEngine P] in
/-- What a leg leads to, whatever else happens to the run on the way. -/
theorem Poised.advance (h : Poised w es done cur r) {fs : List Entry} {tr : Transition}
    {q : Run GraphEngine P} (out : tr ∈ w.graph.outgoing r.engine.current)
    (below : r.depth < w.config.depthLimit)
    (leg : Leg w.good fs r.engine.current tr (r.depth + 1)) (wellFormed : q.engine.WellFormed w.graph)
    (current : q.engine.current = tr.state) (config : q.config = r.config)
    (unprobed : q.probeRequested = r.probeRequested)
    (unrequested : q.backtrackRequested = r.backtrackRequested)
    (vouches : Vouches w.admits w.holds w.good q.properties)
    (journal : q.journal.entries = r.journal.entries ++ fs) (depth : q.depth = r.depth + 1)
    (atViolation : q.atViolation = !w.good tr.state)
    (isDone : q.done = (!w.good tr.state && !w.config.continueOnViolation))
    (errors : q.violations.length = r.violations.length + fs.countP Entry.isViolation)
    (orderly : w.orderly → q.engine.random = none ∧ w.Plain (cur ++ fs)) :
    Stands w (es ++ fs) done (cur ++ fs) q where
  wellFormed := wellFormed
  config := config.trans h.config
  unprobed := unprobed.trans h.unprobed
  unrequested := unrequested.trans h.unrequested
  vouches := vouches
  journal := by rw [journal, h.journal, List.append_assoc]
  logbook := h.logbook.append leg.within leg.silent
  lap := by
    rw [h.depth] at leg
    exact current ▸ h.lap.step h.good out leg
  depth := by rw [depth, h.depth, strides_append, leg.strides, List.length_append, List.length_singleton]
  within := depth ▸ below
  atViolation := current ▸ atViolation
  isDone := current ▸ isDone
  errors := by rw [errors, h.errors, List.countP_append]
  single single := by
    rw [List.countP_append, h.single single, if_pos h.good, leg.violations, Nat.zero_add, current]
  orderly fixed := ⟨(orderly fixed).1, (h.orderly fixed).2.1, (orderly fixed).2⟩

omit lawful [Checkable GraphEngine P] in
/-- What a step tells together with the check after it and its announcement: a leg, which ends with the
    violation if there is one. -/
theorem exists_leg {good : StateId → Bool} {q : Run GraphEngine P} {top : Frame} {rest : List Frame}
    {edge : Edge} {found : List Entry} (enters : Enters w.graph r.engine top rest edge)
    (checked : Run.Checked (good edge.target) r.stepped q found) {b : Bulletin}
    (event : b.event = .stateAdvanced) (depth : b.depth = r.depth + 1) (state : b.state = edge.target) :
    ∃ fs, (q.journal.record (.announced b)).entries = r.journal.entries ++ fs ∧
      Leg good fs top.state edge.transition (r.depth + 1) ∧
      fs.countP Entry.isViolation = found.length ∧
      (good edge.target = false →
        ∃ front id name depth, fs = front ++ [.violated id name depth, .announced b]) := by
  let moved : List Entry := [.moved .forward r.depth true,
    .crossed top.state edge.transition (decide (edge.target ∉ r.engine.visited))]
  refine ⟨moved ++ (found ++ [.announced b]), ?_, leg_of_step ?_ event depth state, ?_, fun bad => ?_⟩
  · rw [Journal.entries_record, checked.entries, Run.entries_stepped_of_enters enters]
    simp [moved]
  · rcases checked.verdict with fine | ⟨bad, id, name, eq⟩
    · exact .inl fine
    · exact .inr ⟨bad, id, name, _, eq⟩
  · rcases checked.verdict with ⟨-, rfl⟩ | ⟨-, _, _, rfl⟩ <;> rfl
  · rcases checked.verdict with ⟨fine, -⟩ | ⟨-, id, name, rfl⟩
    · simp [fine] at bad
    · exact ⟨moved, id, name, _, rfl⟩

/-- A step below the depth limit, and the check after it. -/
theorem Poised.enter (h : Poised w es done cur r) {top : Frame} {rest : List Frame} {i : Nat}
    {edge : Edge} (choice : top.choices[0]? = some i) (hedge : (w.graph.edges top.state)[i]? = some edge)
    (enters : Enters w.graph r.engine top rest edge) (below : r.depth < w.config.depthLimit) :
    r.stepped.checkProperties.2.depth = r.depth ∧
      ∃ es' cur', Entered w es' done cur' (Run.posted .stateAdvanced
        { r.stepped.checkProperties.2 with depth := r.depth + 1 }) := by
  have here : r.engine.current = top.state := GraphEngine.current_of_frames enters.frames
  have engine := Run.engine_stepped_of_enters enters
  have current : r.stepped.engine.current = edge.target := congrArg GraphEngine.current engine
  have wellFormed : r.stepped.engine.WellFormed w.graph := engine ▸ enters.wellFormed
  obtain ⟨vouches, found, checked⟩ :=
    Vouches.checkProperties (r := r.stepped) lawful.pointwise h.vouches wellFormed
  rw [current] at checked
  let q : Run GraphEngine P := { r.stepped.checkProperties.2 with depth := r.depth + 1 }
  have engine_q : q.engine = r.stepped.engine := checked.engine
  have current_q : q.engine.current = edge.target := (congrArg GraphEngine.current engine_q).trans current
  obtain ⟨fs, entries, leg, count, told⟩ :=
    exists_leg enters checked (b := q.bulletin 0 .stateAdvanced) rfl rfl current_q
  rw [← here] at leg
  have grown : strides (cur ++ fs) = strides cur ++ [⟨r.engine.current, edge.transition⟩] := by
    rw [strides_append, leg.strides]
  obtain ⟨_, _, frames, untried, order⟩ := h.untried
  obtain ⟨rfl, rfl⟩ := List.cons.inj (enters.frames.symm.trans frames)
  have stands : Stands w (es ++ fs) done (cur ++ fs) (q.posted .stateAdvanced) := by
    apply h.advance (q := q.posted .stateAdvanced) (here ▸ enters.outgoing) below leg
      (engine_q ▸ wellFormed) current_q checked.config checked.probeRequested checked.backtrackRequested
      vouches entries rfl checked.atViolation
    · have notDone : r.stepped.done = false := h.isDone.trans (by simp [h.good])
      refine checked.isDone.trans ?_
      rw [notDone, Bool.false_or, ← h.config]
      rfl
    · rw [count]
      exact checked.violations
    · intro fixed
      obtain ⟨random, -, plain⟩ := h.orderly fixed
      constructor
      · -- Without a source of randomness the order of the choices is not drawn.
        show q.engine.random = none
        rw [engine_q, engine]
        show (GraphEngine.arrange _ r.engine.random).2 = none
        rw [random]
        rfl
      · rw [Setting.Plain, grown, List.length_append, List.length_singleton]
        rw [order fixed, ← here] at choice
        rw [← here] at hedge
        exact h.lap.walk.firstStrides_concat plain choice hedge
  refine ⟨checked.depth, es ++ fs, cur ++ fs, { stands with
    moved := by simp [grown], tries := ?_, uncounted := ?_, untried := ?_, told := fun bad => ?_ }⟩
  · rw [List.countP_append, h.tries, leg.tries, grown, List.length_append, List.length_singleton]
  · rw [List.filterMap_append, h.uncounted, leg.uncounted, List.append_nil]
  · refine ⟨_, _, congrArg GraphEngine.frames (engine_q.trans engine), rfl, fun fixed => ?_⟩
    show (GraphEngine.arrange (GraphEngine.declared r.engine.graph edge.target) r.engine.random).1 = _
    rw [(h.orderly fixed).1, h.wellFormed.graph]
    rfl
  · obtain ⟨front, id, name, depth, rfl⟩ := told (current_q ▸ bad)
    exact ⟨es ++ front, id, name, depth, _, (List.append_assoc _ _ _).symm, rfl⟩

/-- A check in a good state changes nothing that matters. -/
theorem Stands.check (h : Stands w es done cur r) (good : w.good r.engine.current = true) :
    Stands w es done cur r.checkProperties.2 ∧ r.checkProperties.2.engine = r.engine := by
  obtain ⟨vouches, found, checked⟩ := h.vouches.checkProperties lawful.pointwise h.wellFormed
  rw [good] at checked
  obtain rfl : found = [] := by simpa using checked.verdict
  refine ⟨?_, checked.engine⟩
  exact {
    wellFormed := checked.engine ▸ h.wellFormed
    config := checked.config.trans h.config
    unprobed := checked.probeRequested.trans h.unprobed
    unrequested := checked.backtrackRequested.trans h.unrequested
    vouches := vouches
    journal := by rw [checked.entries, List.append_nil, h.journal]
    logbook := h.logbook
    lap := checked.engine ▸ h.lap
    depth := checked.depth.trans h.depth
    within := checked.depth ▸ h.within
    atViolation := by rw [checked.atViolation, checked.engine, h.atViolation, good]; rfl
    isDone := by rw [checked.isDone, checked.engine, h.isDone, good]; rfl
    errors := checked.violations.trans h.errors
    single := checked.engine ▸ h.single
    orderly := checked.engine ▸ h.orderly }

omit lawful [Checkable GraphEngine P] in
theorem Spent.posted (h : Spent w es done cur r) {e : Event} (other : e.isStation = false) :
    Spent w (es ++ [.announced (r.bulletin 0 e)]) done (cur ++ [.announced (r.bulletin 0 e)])
      (r.posted e) := by
  have aside : (Entry.announced (r.bulletin 0 e)).isIncidental = true := Entry.isIncidental_announced other
  have same : strides (cur ++ [.announced (r.bulletin 0 e)]) = strides cur :=
    strides_append_incidental (List.forall_mem_singleton.2 aside)
  exact { h.toStands.record aside with
    halts := by
      rw [same]
      exact h.halts
    tries := by simpa [Entry.isForward] using h.tries
    uncounted := by simpa [Entry.walked?, List.filterMap_cons] using h.uncounted }

/-- At the depth limit the walk is over. -/
theorem Poised.limit (h : Poised w es done cur r) (full : w.config.depthLimit ≤ r.depth)
    (details : String) :
    let q := (Run.posted .searchConstraintHit { r with lastConstraint := some details }).checkProperties.2
    w.good q.engine.current = true ∧ ∃ es' cur', Spent w es' done cur' q := by
  let r' : Run GraphEngine P := { r with lastConstraint := some details }
  have stands : Stands w es done cur r' := { h.toStands with }
  have spent : Spent w es done cur r' := { stands with
    halts := .inr (.inl (h.depth ▸ Nat.le_antisymm h.within full))
    tries := by rw [h.tries, ← h.depth]; exact h.within
    uncounted := h.uncounted }
  have told := spent.posted (e := .searchConstraintHit) rfl
  obtain ⟨checked, engine⟩ := told.toStands.check lawful h.good
  refine ⟨?_, _, _, { checked with halts := ?_, tries := told.tries, uncounted := told.uncounted }⟩
  · show w.good (r'.posted .searchConstraintHit).checkProperties.2.engine.current = true
    rw [engine]
    exact h.good
  · rw [engine]
    exact told.halts

/-- An initial state that is an end state is a walk of its own. -/
theorem Poised.stuck (h : Poised w es done cur r) (isEnd : w.graph.isEnd r.engine.current = true)
    (stuck : Engine.forward r.engine = (false, r.engine.stall)) :
    w.good r.stepped.checkProperties.2.engine.current = true ∧
      ∃ es' cur', Spent w es' done cur' (r.stepped.checkProperties.2.posted .stateProcessed) := by
  have rooted : strides cur = [] := h.ahead.resolve_right (by simp [isEnd])
  let e : Entry := .moved .forward r.depth false
  have stepped : r.stepped =
      { r.record e with atViolation := false, lastQuery := none, engine := r.engine.stall } := by
    simp only [Run.stepped, Run.stepJournal, stuck]
    rfl
  have told : Stands w (es ++ [e]) done (cur ++ [e]) (r.record e) := h.toStands.record rfl
  have stands : Stands w (es ++ [e]) done (cur ++ [e]) r.stepped := by
    rw [stepped]
    refine { told with wellFormed := h.wellFormed.stall, atViolation := ?_ }
    show false = !w.good r.engine.current
    rw [h.good, Bool.not_true]
  have good : w.good r.stepped.engine.current = true := by
    rw [stepped]
    exact h.good
  obtain ⟨checked, engine⟩ := stands.check lawful good
  have spent : Spent w (es ++ [e]) done (cur ++ [e]) r.stepped.checkProperties.2 := { checked with
    halts := by
      rw [engine, stepped]
      exact .inl isEnd
    tries := by
      rw [List.countP_append, h.tries, rooted]
      exact lawful.positive
    uncounted := by simpa [e, Entry.walked?, List.filterMap_cons] using h.uncounted }
  exact ⟨engine ▸ good, _, _, spent.posted (e := .stateProcessed) rfl⟩

variable {L : Type} [Listener GraphEngine P L]

/-- An attempt takes a step, or the walk is over. -/
theorem attains_attempt (h : Poised w es done cur r) :
    Attains Search.Alone (attempt (L := L)) r fun a q =>
    (a = .advanced ∧ q.depth = r.depth + 1 ∧ ∃ es' cur', Entered w es' done cur' q) ∨
      (a = .halted ∧ w.good q.engine.current = true ∧ ∃ es' cur', Spent w es' done cur' q) := by
  apply Search.alone_look
  apply Search.alone_look
  apply Search.alone_update
  rw [Run.takeBacktrackRequest_of_not h.unrequested, h.config]
  -- The depth limit, an initial state without a way out, or a step.
  split
  · rename_i full
    obtain ⟨good, es', cur', spent⟩ := h.limit lawful full _
    apply Search.alone_announceConstraint
    apply Search.alone_update
    exact Search.alone_pure (.inr ⟨rfl, good, es', cur', spent⟩)
  · rename_i below
    rw [if_neg Bool.false_ne_true]
    apply Search.alone_forward
    obtain ⟨top, rest, frames, untried, -⟩ := h.untried
    rcases h.wellFormed.forward_of_untried lawful.valid frames untried with
      ⟨isEnd, stuck⟩ | ⟨i, edge, choice, hedge, enters⟩
    · rw [← GraphEngine.current_of_frames frames] at isEnd
      obtain ⟨good, es', cur', spent⟩ := h.stuck lawful isEnd stuck
      rw [stuck, if_neg Bool.false_ne_true]
      apply Search.alone_announce
      exact Search.alone_pure (.inr ⟨rfl, good, es', cur', spent⟩)
    · obtain ⟨depth, es', cur', entered⟩ := h.enter lawful choice hedge enters (Nat.lt_of_not_le below)
      have room : r.depth + 1 < wordLimit := by
        have := lawful.representable
        omega
      rw [enters.forward, if_pos rfl]
      apply Search.alone_descend (depth ▸ room)
      apply Search.alone_announce
      rw [depth]
      exact Search.alone_pure (.inl ⟨rfl, rfl, es', cur', entered⟩)

omit [Listener GraphEngine P L] in
/-- A walk begins at the initial state, where nothing was tried yet. -/
theorem poised_root {order : List Nat} (wellFormed : r.engine.WellFormed w.graph)
    (frames : r.engine.frames = [{ state := 0, choices := order }]) (config : r.config = w.config)
    (unprobed : r.probeRequested = false) (unrequested : r.backtrackRequested = false)
    (vouches : Vouches w.admits w.holds w.good r.properties) (journal : r.journal.entries = w.before ++ es)
    (logbook : Logbook w.graph w.good w.config.depthLimit es done cur) (begins : Lap.Begins done.length cur)
    (depth : r.depth = 0) (unviolated : r.atViolation = false) (notDone : r.done = false)
    (errors : r.violations.length = es.countP Entry.isViolation)
    (single : w.config.continueOnViolation = false → es.countP Entry.isViolation = 0)
    (orderly : w.orderly → r.engine.random = none ∧ order = w.choices ∧ ∀ lap ∈ done, w.Plain lap) :
    Poised w es done cur r := by
  have current : r.engine.current = 0 := GraphEngine.current_of_frames frames
  have root : w.good r.engine.current = true := current ▸ lawful.root
  exact {
    wellFormed, config, unprobed, unrequested, vouches, journal, logbook, errors
    lap := current ▸ begins.lap lawful.root
    depth := by rw [depth, begins.strides, List.length_nil]
    within := depth ▸ Nat.zero_le _
    atViolation := by rw [unviolated, root, Bool.not_true]
    isDone := by rw [notDone, root, Bool.not_true, Bool.false_and]
    single := fun ends => (single ends).trans (if_pos root).symm
    orderly := fun fixed => by
      refine ⟨(orderly fixed).1, (orderly fixed).2.2, ?_⟩
      rw [Setting.Plain, begins.strides]
      rfl
    good := root
    ahead := .inl begins.strides
    tries := by rw [begins.tries, begins.strides, List.length_nil]
    uncounted := begins.uncounted
    untried := by
      refine ⟨_, _, frames, rfl, fun fixed => ?_⟩
      rw [if_pos begins.strides]
      exact (orderly fixed).2.1 }

omit [Listener GraphEngine P L] in
/-- The next walk begins as the first one did. -/
theorem Concluded.restart (h : Concluded w es done cur r) :
    ∃ es' cur', Poised w es' (done ++ [cur]) cur' ((r.restarted start).posted .stateRestored) := by
  let e : Entry := .moved .restore r.depth true
  let q := r.restarted start
  let b := q.bulletin 0 .stateRestored
  let es' := es ++ [e] ++ [.announced b]
  obtain ⟨wellFormed, order, frames, fixed⟩ := lawful.fresh.restarted lawful.frames h.wellFormed
  have current : q.engine.current = 0 := GraphEngine.current_of_frames frames
  have depth := lawful.pathLength_start
  have begins : Lap.Begins (done ++ [cur]).length [.announced b] := by
    refine ⟨rfl, ?_, rfl, rfl, rfl⟩
    show [(Event.stateRestored, start.snapshot.pathLength, q.engine.current)] = _
    simp [depth, current, itinerary]
  -- A walk into a violation is followed by another one only if violations do not end the search.
  have notDone : r.done = false := by
    rw [h.isDone]
    cases single : w.config.continueOnViolation with
    | true => simp
    | false => simp [h.kept single]
  have journal : (q.posted .stateRestored).journal.entries = w.before ++ es' := by
    show ((r.journal.record e).record (.announced b)).entries = _
    simp [es', h.journal]
  have violations : es'.countP Entry.isViolation = es.countP Entry.isViolation := by
    simp [es', e, Entry.isViolation]
  refine ⟨es', [.announced b], ?_⟩
  apply poised_root (r := q.posted .stateRestored) lawful wellFormed frames h.config h.unprobed
    h.unrequested h.vouches journal (h.logbook.turn h.complete h.counted rfl rfl rfl rfl) begins depth rfl
    notDone (h.errors.trans violations.symm)
  · intro single
    rw [violations, h.single single, if_pos (h.kept single)]
  · intro orderly
    obtain ⟨random, before, plain⟩ := h.orderly orderly
    refine ⟨(fixed random).2, (fixed random).1, ?_⟩
    simpa [or_imp, forall_and] using ⟨before, plain⟩

/-! ## Iterations -/

/-- The search is before an iteration, with some walks done and not all of them. -/
def Inside (w : Setting P) (pathLimit walks : Nat) (r : Run GraphEngine P) : Prop :=
  walks < pathLimit ∧ ∃ es done cur, Poised w es done cur r ∧ done.length = walks

/-- How many iterations there are at most, after this one. -/
def toGo (w : Setting P) (pathLimit walks : Nat) (r : Run GraphEngine P) : Nat :=
  (pathLimit - walks) * (w.config.depthLimit + 1) - 1 - r.depth

/-- How the walks come to their end: all of them are made, or the last one led into a violation,
    which ends the search. -/
inductive Over (w : Setting P) (pathLimit : Nat) : StopReason → Run GraphEngine P → Prop where
  | all {es cur : List Entry} {done : List (List Entry)} {r : Run GraphEngine P} :
      Concluded w es done cur r → done.length + 1 = pathLimit → Over w pathLimit .pathLimitReached r
  | broken {front es cur : List Entry} {done : List (List Entry)} {r : Run GraphEngine P}
      {id depth : Nat} {name : String} {b b' : Bulletin} :
      Spent w es done cur r → done.length < pathLimit → w.config.continueOnViolation = false →
      w.good r.engine.current = false →
      es = front ++ [.violated id name depth, .announced b, .announced b'] →
      b.event = .stateAdvanced → b'.event = .propertyViolated → Over w pathLimit .propertyViolated r

theorem attains_finishWalk (h : Spent w es done cur r)
    (kept : w.config.continueOnViolation = false → w.good r.engine.current = true) {pathLimit bound : Nat}
    (few : done.length < pathLimit)
    (enough : (pathLimit - (done.length + 1)) * (w.config.depthLimit + 1) ≤ bound) :
    Attains Search.Alone (finishWalk (L := L) pathLimit start.snapshot done.length) r
      (Turn.Leads (Inside w pathLimit) (toGo w pathLimit) bound (Over w pathLimit)) := by
  have concluded := h.conclude kept
  apply Search.alone_change
  split
  · rename_i last
    exact Search.alone_pure (.all concluded (by omega))
  · rename_i more
    obtain ⟨es', cur', poised⟩ := concluded.restart lawful
    apply Search.alone_restart
    apply Search.alone_announce
    refine Search.alone_pure ⟨⟨by omega, es', _, cur', poised, by simp⟩, ?_⟩
    -- Another walk is to be made, so that there is something to go down from.
    have some : 0 < (pathLimit - (done.length + 1)) * (w.config.depthLimit + 1) :=
      Nat.mul_pos (by omega) (by omega)
    rw [toGo]
    omega

/-- A violation ends the search, or the walk. -/
theorem attains_leaveViolation (h : Entered w es done cur r) (bad : w.good r.engine.current = false)
    {pathLimit bound : Nat} (few : done.length < pathLimit)
    (enough : (pathLimit - (done.length + 1)) * (w.config.depthLimit + 1) ≤ bound) :
    Attains Search.Alone (do
        Search.announceViolation
        if ← Search.update Run.endsAtViolation then return .stop .propertyViolated
        else
          let _ ← Search.update Run.takeBacktrackRequest
          finishWalk (L := L) pathLimit start.snapshot done.length) r
      (Turn.Leads (Inside w pathLimit) (toGo w pathLimit) bound (Over w pathLimit)) := by
  have spent := (h.spent (.inl bad)).posted (e := .propertyViolated) rfl
  have atViolation : (r.posted .propertyViolated).atViolation = true := h.atViolation.trans (by simp [bad])
  have isDone : (r.posted .propertyViolated).done = !w.config.continueOnViolation :=
    h.isDone.trans (by simp [bad])
  apply Search.alone_announceViolation
  apply Search.alone_update
  rw [h.config]
  cases single : w.config.continueOnViolation with
  | false =>
    obtain ⟨front, id, name, depth, b, told, event⟩ := h.told bad
    have told' : es ++ [.announced (r.bulletin 0 .propertyViolated)] =
        front ++ [.violated id name depth, .announced b, .announced (r.bulletin 0 .propertyViolated)] := by
      simp [told]
    have ends : (r.posted .propertyViolated).endsAtViolation = (true, r.posted .propertyViolated) := by
      simp [Run.endsAtViolation, atViolation, isDone, single]
    simp only [Bool.false_eq_true, if_false, ends, if_true]
    exact Search.alone_pure (.broken spent few single bad told' event rfl)
  | true =>
    let q := (r.posted .propertyViolated).resetProperties
    have goesOn : q.endsAtViolation = (false, q.requestBacktrack) := by
      have atViolation' : q.atViolation = true := atViolation
      have isDone' : q.done = false := isDone.trans (by simp [single])
      simp [Run.endsAtViolation, atViolation', isDone']
    simp only [if_true, goesOn, Bool.false_eq_true, if_false, q]
    apply Search.alone_update
    -- The request to step back is taken away at once, and the properties start afresh.
    have forgiven : Spent w _ done _ q.requestBacktrack.takeBacktrackRequest.2 :=
      { spent with vouches := spent.vouches.reset lawful.pointwise, unrequested := rfl }
    exact attains_finishWalk lawful forgiven (by simp [single]) few enough

theorem attains_iterate {walks pathLimit : Nat} (h : Inside w pathLimit walks r) :
    Attains Search.Alone (iterate (L := L) pathLimit start.snapshot walks) r
      (Turn.Leads (Inside w pathLimit) (toGo w pathLimit) (toGo w pathLimit walks r) (Over w pathLimit)) := by
  obtain ⟨few, es, done, cur, poised, rfl⟩ := h
  have left : (pathLimit - done.length) * (w.config.depthLimit + 1) =
      (pathLimit - (done.length + 1)) * (w.config.depthLimit + 1) + (w.config.depthLimit + 1) := by
    rw [← Nat.succ_mul]
    congr 1
    omega
  have within := poised.within
  -- If the walk ends now, all iterations of the walks after it are still to go.
  have enough : (pathLimit - (done.length + 1)) * (w.config.depthLimit + 1) ≤
      toGo w pathLimit done.length r := by
    rw [toGo, left]
    omega
  apply Search.alone_pollProbe poised.unprobed
  apply (attains_attempt lawful poised).bind
  rintro a q (⟨rfl, deeper, es', cur', entered⟩ | ⟨rfl, good, es', cur', spent⟩)
  · apply Search.alone_look
    rw [entered.atViolation]
    cases good : w.good q.engine.current with
    | false => exact attains_leaveViolation lawful entered good few enough
    | true =>
      rw [Bool.not_true, if_neg Bool.false_ne_true]
      apply Search.alone_look
      have isEnd : Engine.isEnd q.engine = w.graph.isEnd q.engine.current := by
        rw [← entered.wellFormed.graph]
        rfl
      cases ended : w.graph.isEnd q.engine.current with
      | true =>
        rw [isEnd, ended]
        exact attains_finishWalk lawful (entered.spent (.inr ended)) (fun _ => good) few enough
      | false =>
        rw [isEnd, ended]
        refine Search.alone_pure ⟨⟨few, es', done, cur', entered.poised good ended, rfl⟩, ?_⟩
        have within := entered.within
        rw [toGo, toGo, left, deeper]
        omega
  · apply Search.alone_look
    rw [spent.atViolation, good, Bool.not_true, if_neg Bool.false_ne_true]
    exact attains_finishWalk lawful spent (fun _ => good) few enough

/-! ## Runs -/

/-- How the walks of a search go, as its journal tells. -/
structure Rounds (g : StateGraph) (good : StateId → Bool) (limit pathLimit : Nat) (orderly : Prop)
    (news : List Entry) : Prop where
  few : (laps news).length ≤ pathLimit
  advances : news.countP Entry.isForward ≤ pathLimit * limit
  /-- Every walk begins at depth 0 in the initial state, and is a path through good states that are no
      end states to an end state, to the depth limit, or to a state that is not good. -/
  walks : ∀ i lap, (laps news)[i]? = some lap → Lap.Complete g good limit i lap
  /-- Without random choices there is only one walk to make. -/
  same : orderly → ∀ lap ∈ laps news, ∀ lap' ∈ laps news, strides lap = strides lap'

omit lawful [Listener GraphEngine P L] [Checkable GraphEngine P] in
theorem Stands.rounds (h : Stands w es done cur r)
    (complete : Lap.Complete w.graph w.good w.config.depthLimit done.length cur) {pathLimit : Nat}
    (few : done.length < pathLimit) : Rounds w.graph w.good w.config.depthLimit pathLimit w.orderly es := by
  have walks : ∀ i lap, (laps es)[i]? = some lap →
      Lap.Complete w.graph w.good w.config.depthLimit i lap := by
    rw [h.logbook.laps]
    exact Logbook.forall_laps (fun i lap found => (h.logbook.complete i lap found).1) complete
  have length : (laps es).length ≤ pathLimit := by
    rw [h.logbook.laps, List.length_append, List.length_singleton]
    exact few
  have each (lap : List Entry) (found : lap ∈ laps es) :
      ∃ i, Lap.Complete w.graph w.good w.config.depthLimit i lap := by
    obtain ⟨i, found⟩ := List.getElem?_of_mem found
    exact ⟨i, walks i lap found⟩
  refine ⟨length, ?_, walks, ?_⟩
  · have total : es.countP Entry.isForward ≤ (laps es).length * w.config.depthLimit := by
      apply countP_le_laps
      · intro e turns
        cases e with
        | moved move => cases move <;> first | rfl | cases turns
        | _ => rfl
      · intro lap found
        obtain ⟨i, complete⟩ := each lap found
        exact complete.tries
    exact total.trans (Nat.mul_le_mul_right _ length)
  · -- Both laps take the first choices up to where a walk may end, and no walk goes on from there.
    intro orderly lap found lap' found'
    obtain ⟨-, before, plain⟩ := h.orderly orderly
    have all : ∀ lap ∈ laps es, w.Plain lap := by
      rw [h.logbook.laps]
      simpa [or_imp, forall_and] using ⟨before, plain⟩
    obtain ⟨i, ⟨s, told, halts⟩, within, -⟩ := each lap found
    obtain ⟨i', ⟨s', told', halts'⟩, within', -⟩ := each lap' found'
    exact told.walk.eq_of_firstStrides told'.walk (all lap found) (all lap' found') halts halts' within
      within'

/-- What a search by random walks comes to. -/
structure Roams (g : StateGraph) (good : StateId → Bool) (c : Config) (pathLimit : Nat) (orderly : Prop)
    (news : List Entry) (o : Outcome) : Prop extends Rounds g good c.depthLimit pathLimit orderly news where
  errors : o.errors = news.countP Entry.isViolation
  /-- All walks are made and counted if there is no violation, or if the search goes on after them. -/
  all : o.errors = 0 ∨ c.continueOnViolation = true → o.reason = .pathLimitReached ∧
    (laps news).length = pathLimit ∧ news.countP Entry.isRestored = pathLimit - 1 ∧
    ∀ i lap, (laps news)[i]? = some lap → Lap.Counted i lap
  /-- Otherwise the first violation is the last thing to happen, but for its announcements. -/
  first : c.continueOnViolation = false → o.errors ≠ 0 → o.reason = .propertyViolated ∧ o.errors = 1 ∧
    ∃ front id name depth after, news = front ++ .violated id name depth :: after ∧
      after.map Entry.event? = [some .stateAdvanced, some .propertyViolated, some .searchFinished]

omit lawful [Listener GraphEngine P L] [Checkable GraphEngine P] in
theorem Over.roams {pathLimit : Nat} {reason : StopReason} (h : Over w pathLimit reason r) {o : Outcome}
    (stopped : o.reason = reason) (errors : o.errors = r.violations.length) :
    ∃ es, (r.posted .searchFinished).journal.entries = w.before ++ es ∧
      Roams w.graph w.good w.config pathLimit w.orderly es o := by
  let e : Entry := .announced (r.bulletin 0 .searchFinished)
  have incidental : ∀ f ∈ [e], f.isIncidental = true :=
    List.forall_mem_singleton.2 (Entry.isIncidental_announced rfl)
  cases h with
  | @all es cur done r concluded length =>
    have stands : Stands w (es ++ [e]) done (cur ++ [e]) (r.record e) := concluded.toStands.record rfl
    have few : done.length < pathLimit := by omega
    have rounds := stands.rounds (concluded.complete.incidental incidental rfl) few
    refine ⟨_, stands.journal, { rounds with
      errors := errors.trans stands.errors
      all := fun _ => ⟨stopped, ?_, ?_, ?_⟩
      first := fun single some => ?_ }⟩
    · rw [stands.logbook.laps, List.length_append, List.length_singleton]
      exact length
    · rw [stands.logbook.restored]
      omega
    · rw [stands.logbook.laps]
      exact Logbook.forall_laps (fun i lap found => (stands.logbook.complete i lap found).2)
        (concluded.counted.incidental incidental rfl)
    · -- A search that ends with a violation would not have counted the walk into it.
      have none : o.errors = 0 :=
        errors.trans (stands.errors.trans ((stands.single single).trans (if_pos (concluded.kept single))))
      exact absurd none some
  | @broken front es cur done r id depth name b b' spent few single bad told event event' =>
    have stands : Stands w (es ++ [e]) done (cur ++ [e]) (r.record e) := spent.toStands.record rfl
    have rounds := stands.rounds (spent.complete.incidental incidental rfl) few
    have one : o.errors = 1 := by
      refine errors.trans (stands.errors.trans ((stands.single single).trans (if_neg ?_)))
      show ¬ w.good r.engine.current = true
      simp [bad]
    refine ⟨_, stands.journal, { rounds with
      errors := errors.trans stands.errors
      all := fun none => ?_
      first := fun _ _ => ⟨stopped, one, ?_⟩ }⟩
    · simp [one, single] at none
    · refine ⟨front, id, name, depth, [.announced b, .announced b', e], by simp [told], ?_⟩
      simp [Entry.event?, event, event', e, Run.bulletin]

theorem attains_loop {pathLimit budget : Nat} (h : Inside w pathLimit 0 r)
    (enough : pathLimit * (w.config.depthLimit + 1) ≤ budget) :
    Attains Search.Alone (loop (·.run.done) .terminated (iterate (L := L) pathLimit start.snapshot) budget 0) r
      (Over w pathLimit) := by
  refine Attains.loop (Inside w pathLimit) (toGo w pathLimit) ?_ ?_ h ?_
  · rintro walks s q rfl ⟨-, es, done, cur, poised, -⟩
    simpa [poised.good] using poised.isDone
  · exact fun walks q inside => attains_iterate lawful inside
  · have some : 0 < pathLimit * (w.config.depthLimit + 1) := Nat.mul_pos h.1 (Nat.succ_pos _)
    rw [toGo, Nat.sub_zero]
    omega

/-- From where the first walk begins to the end of the last one. -/
theorem attains_explore {pathLimit budget : Nat} (walks : 1 ≤ pathLimit)
    (enough : pathLimit * (w.config.depthLimit + 1) ≤ budget) (engine : r.engine = start)
    (begins : Poised w es [] cur (Run.posted .searchStarted
      { r.setMatching false with depth := start.snapshot.pathLength })) :
    Attains Search.Alone (explore (L := L) pathLimit budget) r fun reason q =>
      ∃ q', Over w pathLimit reason q' ∧ q = q'.posted .searchFinished := by
  apply Search.alone_look
  rw [engine]
  apply Search.alone_change
  apply Search.alone_change
  apply Search.alone_announce
  rw [Nat.max_eq_left walks]
  apply (attains_loop lawful ⟨walks, es, [], cur, begins, rfl⟩ enough).bind
  intro reason q ended
  apply Search.alone_announce
  exact Search.alone_pure ⟨q, ended, rfl⟩

/-- The whole search, from a run that the walks begin in. -/
theorem attains_run {pathLimit budget : Nat} (walks : 1 ≤ pathLimit)
    (enough : pathLimit * (w.config.depthLimit + 1) ≤ budget) (engine : r.engine = start)
    (config : r.config = w.config) (unprobed : r.probeRequested = false)
    (unrequested : r.backtrackRequested = false)
    (vouches : Vouches w.admits w.holds w.good r.properties) (journal : r.journal.entries = w.before)
    (unviolated : r.atViolation = false) (notDone : r.done = false) (violations : r.violations = [])
    (orderly : w.orderly → start.random = none) :
    Attains Search.Alone (run (L := L) pathLimit budget) r fun o q =>
      ∃ es, q.journal.entries = w.before ++ es ∧ Roams w.graph w.good w.config pathLimit w.orderly es o := by
  subst engine
  let q : Run GraphEngine P :=
    { (r.launched name).setMatching false with depth := r.engine.snapshot.pathLength }
  let b := q.bulletin 0 .searchStarted
  let es := r.preamble name ++ [.announced b]
  have entries : (q.posted .searchStarted).journal.entries = w.before ++ es := by
    show ((r.launched name).journal.record (.announced b)).entries = _
    rw [Journal.entries_record, Run.entries_launched, journal, List.append_assoc]
  -- The launch of the strategy is told before the first walk and belongs to its lap.
  have station : Entry.station? (.announced b) = some (.searchStarted, 0, 0) := by
    have current : r.engine.current = 0 := GraphEngine.current_of_frames lawful.frames
    show some (Event.searchStarted, r.engine.snapshot.pathLength, r.engine.current) = _
    rw [lawful.pathLength_start, current]
  obtain ⟨begins, logbook⟩ : Lap.Begins 0 es ∧ Logbook w.graph w.good w.config.depthLimit es [] es := by
    simp only [es, Run.preamble]
    split <;> refine ⟨⟨rfl, ?_, rfl, rfl, rfl⟩, rfl, by simp, rfl⟩ <;>
      exact congrArg (· :: []) (Option.some.inj station)
  have none : es.countP Entry.isViolation = 0 := begins.violations
  have poised : Poised w es [] es (q.posted .searchStarted) :=
    poised_root (r := q.posted .searchStarted) lawful lawful.fresh.wellFormed lawful.frames config unprobed
      unrequested vouches entries logbook begins lawful.pathLength_start unviolated notDone
      (none ▸ congrArg List.length violations) (fun _ => none) fun fixed => ⟨orderly fixed, rfl, by simp⟩
  apply Search.alone_launch
  apply (attains_explore (r := r.launched name) lawful walks enough rfl poised).bind
  rintro reason _ ⟨q, ended, rfl⟩
  apply Search.alone_change
  let o : Outcome :=
    { reason, depth := q.depth, errors := q.violations.length, lastConstraint := q.lastConstraint }
  obtain ⟨es, entries, roams⟩ := ended.roams (o := o) rfl rfl
  rintro _ rfl
  exact ⟨_, _, _, rfl, rfl, es, entries, roams⟩

end Lawful

theorem steady_run {E P L : Type} [Engine E] [Checkable E P] [Listener E P L] (pathLimit : Nat) :
    Steady (run (E := E) (P := P) (L := L) pathLimit) := by
  intro n m le
  -- Only the loop uses the budget; what comes before it is the same in both runs.
  apply Extends.bind_right
  intro _
  refine Extends.bind ?_ fun _ => .refl _
  apply Extends.bind_right
  intro e
  cases Engine.snapshot? e with
  | none => exact .refl _
  | some start =>
    apply Extends.bind_right
    intro _
    apply Extends.bind_right
    intro _
    apply Extends.bind_right
    intro _
    refine Extends.bind ?_ fun _ => .refl _
    exact Extends.loop (fun _ => .refl _) le 0

variable {L : Type} {s : Search GraphEngine P L}

/-- Nobody listens to the search, nothing was asked of it, and it has found nothing. -/
structure Unstarted (s : Search GraphEngine P L) : Prop where
  listeners : s.listeners = []
  reporter : s.reporter = none
  notDone : s.run.done = false
  unprobed : s.run.probeRequested = false
  unrequested : s.run.backtrackRequested = false
  unviolated : s.run.atViolation = false
  violations : s.run.violations = []

/-- Random walks over a valid graph from a fresh engine, with or without random choices, while nobody
    listens and the properties are predicates of the current state that hold in the initial one.
    There are at most as many walks as the path limit says, each within the depth limit, and the
    search ends within that budget. -/
theorem walks_within_limits [Checkable GraphEngine P] [Listener GraphEngine P L] {g : StateGraph}
    (valid : g.validate = .ok ()) {admits : P → Prop} {holds : P → StateId → Bool}
    (pointwise : Checkable.Pointwise g admits holds) (unstarted : Unstarted s)
    (fresh : s.run.engine.Fresh g) (admitted : ∀ w ∈ s.run.properties, admits w.property)
    (root : ∀ w ∈ s.run.properties, holds w.property 0 = true) (positive : 1 ≤ s.run.config.depthLimit)
    (representable : s.run.config.depthLimit < wordLimit) {pathLimit : Nat} (walks : 1 ≤ pathLimit) :
    ∃ o t, (∀ budget, pathLimit * (s.run.config.depthLimit + 1) ≤ budget →
        RandomRestart.run pathLimit budget s = .ok o t) ∧
      Roams g (fun q => s.run.properties.all fun w => holds w.property q) s.run.config pathLimit
        (s.run.engine.random = none) (t.run.journal.entriesFrom s.run.journal.length) o := by
  obtain ⟨choices, frames⟩ := fresh.frames
  let w : Setting P := {
    graph := g, config := s.run.config, admits, holds, choices
    good := fun q => s.run.properties.all fun w => holds w.property q
    orderly := s.run.engine.random = none
    before := s.run.journal.entries }
  have lawful : w.Lawful s.run.engine :=
    ⟨valid, fresh, frames, pointwise, List.all_eq_true.2 root, positive, representable⟩
  have alone : Search.Alone s s.run := by
    obtain ⟨r, listeners, reporter⟩ := s
    cases unstarted.listeners
    cases unstarted.reporter
    rfl
  have attains := attains_run (L := L) lawful walks le_rfl rfl rfl unstarted.unprobed unstarted.unrequested
    ⟨admitted, fun _ => rfl⟩ rfl unstarted.unviolated unstarted.notDone unstarted.violations fun none => none
  obtain ⟨o, t, q, ran, rfl, es, entries, roams⟩ := attains s alone
  refine ⟨o, _, fun budget enough => steady_run pathLimit _ budget enough s o _ ran, ?_⟩
  have news : q.journal.entriesFrom s.run.journal.length = es := by
    rw [Journal.entriesFrom_eq_drop, entries, ← Journal.length_entries]
    exact List.drop_left
  rw [news]
  exact roams

/-- Three walks in a random order of the edges.  The first goes round the loop of the initial state up to
    the depth limit, and the others come to the end state, which is forbidden. -/
theorem tangle_walks_within_limits : ∃ e, GraphEngine.ofGraph .tangle = .ok e ∧
    let roaming (c : Config) : Search GraphEngine Subject (RuleListener Subject) :=
      (Search.fresh (e.withRandomChoices 0) c).addProperty (.forbidden { states := [2] })
    let comesTo (c : Config) (o : Outcome) (t : Search GraphEngine Subject (RuleListener Subject)) : Prop :=
      Roams .tangle (fun q => (roaming c).run.properties.all fun w => !w.property.breaksAt .tangle q) c 3
        ((roaming c).run.engine.random = none) (t.run.journal.entriesFrom (roaming c).run.journal.length) o
    let going : Config := { depthLimit := 3, continueOnViolation := true }
    let ending : Config := { depthLimit := 3 }
    (∃ o t, RandomRestart.run 3 12 (roaming going) = .ok o t ∧ o.errors = 2 ∧ comesTo going o t) ∧
      ∃ o t, RandomRestart.run 3 12 (roaming ending) = .ok o t ∧ o.reason = .propertyViolated ∧
        comesTo ending o t := by
  refine ⟨_, rfl, ?_⟩
  intro roaming comesTo going ending
  have comes (c : Config) (limit : c.depthLimit = 3) :
      ∃ o t, RandomRestart.run 3 12 (roaming c) = .ok o t ∧ comesTo c o t := by
    have fresh : GraphEngine.Fresh .tangle (roaming c).run.engine :=
      (GraphEngine.fresh_ofGraph (g := .tangle) rfl).withRandomChoices 0
    have properties : (roaming c).run.properties =
        [{ key := 0, property := .forbidden { states := [2] } }] := rfl
    have admitted : ∀ w ∈ (roaming c).run.properties, w.property.isStatic = true := by
      simp [properties, Subject.isStatic]
    have root : ∀ w ∈ (roaming c).run.properties, (!w.property.breaksAt .tangle 0) = true := by
      simp [properties, Subject.breaksAt]
    have config : (roaming c).run.config.depthLimit = 3 := limit
    obtain ⟨o, t, ran, roams⟩ := walks_within_limits (by decide) (Subject.pointwise .tangle)
      ⟨rfl, rfl, rfl, rfl, rfl, rfl, rfl⟩ fresh admitted root (by omega) (config ▸ by decide)
      (show 1 ≤ 3 by decide)
    exact ⟨o, t, ran 12 (by omega), roams⟩
  have broken : ∃ o t, RandomRestart.run 3 12 (roaming going) = .ok o t ∧ o.errors = 2 :=
    exists_ok_of_check (by decide +kernel)
  have ended : ∃ o t, RandomRestart.run 3 12 (roaming ending) = .ok o t ∧ o.reason = .propertyViolated :=
    exists_ok_of_check (by decide +kernel)
  constructor
  · obtain ⟨o, t, ran, errors⟩ := broken
    obtain ⟨o', t', ran', roams⟩ := comes going rfl
    cases ran.symm.trans ran'
    exact ⟨o, t, ran, errors, roams⟩
  · obtain ⟨o, t, ran, reason⟩ := ended
    obtain ⟨o', t', ran', roams⟩ := comes ending rfl
    cases ran.symm.trans ran'
    exact ⟨o, t, ran, reason, roams⟩

end RandomRestart

end Statewalk
