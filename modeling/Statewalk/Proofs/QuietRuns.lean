import Statewalk.Proofs.Attainment
import Statewalk.Proofs.Ledger
import Statewalk.Statistics

/-! # Quiet runs

A run is quiet when its listeners do nothing but keep tallies, nobody asks for progress events and
memory is unlimited.  The operations of such a run are functions of the run: `Mirrors` relates a
search to the run that it mirrors, up to the readings of its memory and those journal entries that
tell neither a transition nor an announcement, and the lemmas of this module give for each operation
what it yields.

* `Run.stepped`, `Run.onward`, `Run.halted`, `Run.retreated` — the run after a step of the engine,
  alone and with what the search does about it.
* `Run.said` — the run after an announcement.
-/

namespace Statewalk

/-! ## What a journal tells of transitions and announcements -/

/-- The crossing that an entry tells. -/
def Entry.crossing? : Entry → Option Crossing
  | .crossed source transition isNew => some { source, transition, isNew }
  | _ => none

/-- The announcement that an entry tells. -/
def Entry.bulletin? : Entry → Option Bulletin
  | .announced b => some b
  | _ => none

/-- The entry tells a transition or an announcement. -/
def Entry.isTold : Entry → Bool
  | .crossed .. => true
  | .announced _ => true
  | _ => false

namespace Journal

/-- The transitions that were taken, in order. -/
def crossings (j : Journal) : List Crossing :=
  j.entries.filterMap Entry.crossing?

/-- The announcements that were made, in order. -/
def bulletins (j : Journal) : List Bulletin :=
  j.entries.filterMap Entry.bulletin?

/-- The entries that tell transitions and announcements, the latest first. -/
def told (j : Journal) : List Entry :=
  j.recent.filter Entry.isTold

variable {j : Journal}

@[simp] theorem crossings_record (e : Entry) :
    (j.record e).crossings = j.crossings ++ e.crossing?.toList := by
  cases h : e.crossing? <;> simp [crossings, h]

@[simp] theorem bulletins_record (e : Entry) :
    (j.record e).bulletins = j.bulletins ++ e.bulletin?.toList := by
  cases h : e.bulletin? <;> simp [bulletins, h]

@[simp] theorem told_record_of_told {e : Entry} (h : e.isTold = true) :
    (j.record e).told = e :: j.told := by
  simp [told, record, h]

@[simp] theorem told_record_of_not_told {e : Entry} (h : e.isTold = false) :
    (j.record e).told = j.told := by
  simp [told, record, h]

theorem told_record_congr {j' : Journal} (h : j.told = j'.told) (e : Entry) :
    (j.record e).told = (j'.record e).told := by
  cases told : e.isTold with
  | true => rw [told_record_of_told told, told_record_of_told told, h]
  | false => rw [told_record_of_not_told told, told_record_of_not_told told, h]

theorem crossings_eq_told (j : Journal) : j.crossings = j.told.reverse.filterMap Entry.crossing? := by
  unfold crossings entries told
  rw [← List.filter_reverse, List.filterMap_filter]
  apply List.filterMap_congr
  intro e _
  -- Entries that are not told tell neither a transition nor an announcement.
  cases e <;> rfl

theorem bulletins_eq_told (j : Journal) : j.bulletins = j.told.reverse.filterMap Entry.bulletin? := by
  unfold bulletins entries told
  rw [← List.filter_reverse, List.filterMap_filter]
  apply List.filterMap_congr
  intro e _
  cases e <;> rfl

end Journal

/-! ## Memory -/

/-- The memory of a process without a ceiling. -/
def Memory.Unlimited (m : Memory) : Prop :=
  ∃ used, m.gauge = .process used ∧ m.ceiling = none

theorem Memory.Unlimited.reading {m : Memory} (h : m.Unlimited) : m.reading = none := by
  obtain ⟨used, gauge, ceiling⟩ := h
  simp [Memory.reading, gauge, ceiling]

theorem Memory.unlimited_configure {c : Config} (h : c.maxMemory = none) :
    ((Memory.ofCeiling none).configure c).Unlimited :=
  ⟨_, rfl, by simp [Memory.configure, h]⟩

/-! ## Audiences -/

/-- What listeners that only keep tallies do to a run when they hear of an event. -/
structure Audience (E P : Type) where
  /-- The number of listeners. -/
  size : Nat
  tallies : Event → Run E P → List Tally
  query : Event → Run E P → Option Query

namespace Run

variable {E P : Type} [Engine E]

/-- The last answer on newness is what the engine says, and states are not matched by depth. -/
def Recalls (r : Run E P) : Prop :=
  ∀ q, r.lastQuery = some q → r.config.matchByMinDepth = false ∧ q.answer = Engine.isNew r.engine

theorem recalls_of_none {r : Run E P} (h : r.lastQuery = none) : r.Recalls := by
  intro q hq
  rw [h] at hq
  cases hq

/-- The run after an audience heard of an event. -/
def heard (A : Audience E P) (event : Event) (r : Run E P) : Run E P :=
  { r with tallies := A.tallies event r, lastQuery := A.query event r }

/-- The state of a run as it is announced to some number of listeners. -/
def bulletin (listeners : Nat) (event : Event) (r : Run E P) : Bulletin :=
  { event
    depth := r.depth
    state := Engine.stateId r.engine
    pathLength := Engine.pathLength r.engine
    depthLimit := r.config.depthLimit
    properties := r.properties.length
    listeners
    violations := r.violations.length
    constraint := r.lastConstraint }

/-- The run after an announcement. -/
def said (A : Audience E P) (event : Event) (r : Run E P) : Run E P :=
  (r.record (.announced (r.bulletin A.size event))).heard A event

/-- What a step forward adds to a journal. -/
def stepJournal (r : Run E P) (j : Journal) : Journal :=
  let after := j.record (.moved .forward r.depth (Engine.forward r.engine).1)
  match (Engine.forward r.engine).1, crossing? r.engine (Engine.forward r.engine).2 with
  | true, some e => after.record e
  | _, _ => after

theorem stepForward_eq (r : Run E P) :
    r.stepForward = ((Engine.forward r.engine).1,
      { r with engine := (Engine.forward r.engine).2, journal := r.stepJournal r.journal }) := by
  rcases forward : Engine.forward r.engine with ⟨moved, e⟩
  simp only [stepForward, stepJournal, forward]
  cases moved <;> cases crossing? r.engine e <;> rfl

theorem told_stepJournal_congr {r : Run E P} {j j' : Journal} (h : j.told = j'.told) :
    (r.stepJournal j).told = (r.stepJournal j').told := by
  unfold stepJournal
  split
  · exact Journal.told_record_congr (Journal.told_record_congr h _) _
  · exact Journal.told_record_congr h _

theorem filterMap_stepJournal {α : Type} {f : Entry → Option α}
    (moved : ∀ move depth done, f (.moved move depth done) = none)
    (crossed : ∀ source transition isNew, f (.crossed source transition isNew) = none) (r : Run E P)
    (j : Journal) : (r.stepJournal j).entries.filterMap f = j.entries.filterMap f := by
  have crossing (e : Entry) (h : crossing? r.engine (Engine.forward r.engine).2 = some e) : f e = none := by
    unfold crossing? at h
    split at h
    · obtain ⟨tr, -, rfl⟩ := Option.map_eq_some_iff.1 h
      exact crossed ..
    · cases h
  unfold stepJournal
  split
  · rename_i e _ crossed
    simp [moved, crossing e crossed]
  · simp [moved]

theorem bulletins_stepJournal (r : Run E P) (j : Journal) : (r.stepJournal j).bulletins = j.bulletins :=
  filterMap_stepJournal (fun _ _ _ => rfl) (fun _ _ _ => rfl) r j

/-- The run after the engine was stepped forward. -/
def stepped (r : Run E P) : Run E P :=
  { r with
    atViolation := false
    lastQuery := none
    engine := (Engine.forward r.engine).2
    journal := r.stepJournal r.journal }

/-- The run after a step into a state. -/
def onward (A : Audience E P) (r : Run E P) : Run E P :=
  ({ r.stepped with depth := r.depth + 1 } : Run E P).said A .stateAdvanced

/-- The run after a step that led nowhere. -/
def halted (A : Audience E P) (r : Run E P) : Run E P :=
  r.stepped.said A .stateProcessed

/-- The run after a step back. -/
def retreated (A : Audience E P) (r : Run E P) : Run E P :=
  ({ r.forgetQuery.stepBack.2 with depth := r.depth - 1 } : Run E P).said A .stateBacktracked

/-- The run after the engine was stepped into a state where a property fails. -/
def broken [Property P] (ps : List (Watched P)) (w : Watched P) (r : Run E P) : Run E P :=
  ({ r.stepped with properties := ps } : Run E P).violate w

theorem violations_broken [Property P] {ps : List (Watched P)} {w : Watched P} {r : Run E P}
    (single : r.config.continueOnViolation = false) : (r.broken ps w).violations =
      r.violations ++ [{ id := r.violations.length + 1, evidence := .live w }] := by
  simp [broken, violate, evidence, stepped, record, single]

/-- The run after it returned to a snapshot. -/
def resumed (A : Audience E P) (snapshot : Snapshot (Engine.Saved E)) (r : Run E P) : Run E P :=
  ({ r with
    lastQuery := none
    atViolation := false
    engine := (Engine.restore snapshot r.engine).2
    depth := snapshot.pathLength
    journal := r.journal.record (.moved .restore r.depth true) } : Run E P).said A .stateRestored

/-- The query that is kept after newness was asked for and the answer given. -/
def asked (answer : Bool) (r : Run E P) : Option Query :=
  match r.cachedAnswer? with
  | some _ => r.lastQuery
  | none => some { state := Engine.stateId r.engine, depth := r.depth, answer }

/-- The run after newness was asked for, which may have changed the depths. -/
def judged (answer : Bool) (depths : DepthTable) (r : Run E P) : Run E P :=
  { r with depths, lastQuery := r.asked answer }

/-- The run after a limit was announced. -/
def constrained (A : Audience E P) (details : String) (r : Run E P) : Run E P :=
  ({ r with lastConstraint := some details } : Run E P).said A .searchConstraintHit

end Run

namespace Run

variable {E P : Type} [Engine E] {r : Run E P}

theorem judge_of_plain (plain : r.config.matchByMinDepth = false) :
    r.judge = .ok (Engine.isNew r.engine, r.depths) := by
  simp [judge, plain]

/-- An answer that is still kept is the one that would be given anew. -/
theorem eq_of_cachedAnswer? {kept answer : Bool} {depths : DepthTable} (recalls : r.Recalls)
    (cached : r.cachedAnswer? = some kept) (judge : r.judge = .ok (answer, depths)) :
    kept = answer ∧ r.depths = depths := by
  unfold cachedAnswer? at cached
  split at cached
  · rename_i q hq
    split at cached
    · obtain ⟨plain, same⟩ := recalls q hq
      rw [judge_of_plain plain] at judge
      cases judge
      cases cached
      exact ⟨same, rfl⟩
    · cases cached
  · cases cached

theorem isNew_apply {answer : Bool} {depths : DepthTable} (matching : r.matching = true)
    (recalls : r.Recalls) (judge : r.judge = .ok (answer, depths)) :
    isNew r = .ok answer (r.judged answer depths) := by
  simp only [isNew, EStateM.get_bind_apply]
  rw [if_pos matching]
  -- An answer that is still kept is the one that would be given now.
  cases cached : r.cachedAnswer? with
  | some kept =>
    obtain ⟨rfl, rfl⟩ := eq_of_cachedAnswer? recalls cached judge
    simp only [judged, asked, cached]
    rfl
  | none =>
    simp only [judge, judged, asked, cached]
    rfl

theorem recalls_asked (plain : r.config.matchByMinDepth = false) (recalls : r.Recalls) :
    (r.judged (Engine.isNew r.engine) r.depths).Recalls := by
  intro q hq
  simp only [judged, asked] at hq
  split at hq
  · exact recalls q hq
  · cases hq
    exact ⟨plain, rfl⟩

end Run

/-- The audience is what the listeners are to runs with the configuration. -/
structure Audience.Hears {E P L : Type} [Engine E] [Listener E P L] (A : Audience E P) (c : Config)
    (ls : List L) : Prop where
  size : A.size = ls.length
  tells : ∀ (event : Event) (r : Run E P) (m : Memory) (j : Journal), r.config = c →
    r.matching = true → r.Recalls → ∃ j',
      Listener.tellAll event ls { r with memory := m, journal := j } =
        { verdict := .ok (), listener := ls,
          run := { r.heard A event with memory := m, journal := j' } } ∧ j'.told = j.told
  recalls : ∀ (event : Event) (r : Run E P), r.config = c → r.Recalls → (r.heard A event).Recalls

/-! ## Mirrors -/

/-- The search has the listeners, no reporter and unlimited memory, and its run is the given one but
    for memory readings and journal entries that tell no transition and no announcement. -/
structure Mirrors {E P L : Type} (c : Config) (ls : List L) (s : Search E P L) (r : Run E P) :
    Prop where
  config : r.config = c
  matching : r.matching = true
  unprobed : r.probeRequested = false
  eq : ∃ m j, s = { run := { r with memory := m, journal := j }, listeners := ls, reporter := none } ∧
    m.Unlimited ∧ j.told = r.journal.told

namespace Mirrors

variable {E P L : Type} {c : Config} {ls : List L} {s : Search E P L} {r : Run E P}

theorem rfl_of_unlimited (h : s.run.memory.Unlimited) (reporter : s.reporter = none)
    (matching : s.run.matching = true) (unprobed : s.run.probeRequested = false) :
    Mirrors s.run.config s.listeners s s.run := by
  refine ⟨rfl, matching, unprobed, s.run.memory, s.run.journal, ?_, h, rfl⟩
  cases s
  cases reporter
  rfl

theorem run_eq (h : Mirrors c ls s r) : ∃ m j, s.run = { r with memory := m, journal := j } ∧
    j.told = r.journal.told := by
  obtain ⟨m, j, rfl, -, told⟩ := h.eq
  exact ⟨m, j, rfl, told⟩

theorem done (h : Mirrors c ls s r) : s.run.done = r.done := by
  obtain ⟨m, j, rfl, -⟩ := h.eq
  rfl

theorem crossings (h : Mirrors c ls s r) : s.run.journal.crossings = r.journal.crossings := by
  obtain ⟨m, j, eq, told⟩ := h.run_eq
  rw [eq, Journal.crossings_eq_told, told, ← Journal.crossings_eq_told]

theorem bulletins (h : Mirrors c ls s r) : s.run.journal.bulletins = r.journal.bulletins := by
  obtain ⟨m, j, eq, told⟩ := h.run_eq
  rw [eq, Journal.bulletins_eq_told, told, ← Journal.bulletins_eq_told]

end Mirrors

/-- The search that a configuration and an engine make. -/
def Search.fresh {E P L : Type} (e : E) (c : Config) : Search E P L :=
  { run := Run.configure c { engine := e, config := c, memory := .ofCeiling none } }

/-! ## Operations -/

namespace Search

variable {E P L : Type} {c : Config} {ls : List L} {r : Run E P}

theorem yields_look {α : Type} {f : Run E P → α}
    (h : ∀ m j, f { r with memory := m, journal := j } = f r) :
    Yields (Mirrors c ls) (look f) r (f r) r := by
  rintro s ⟨config, matching, unprobed, m, j, rfl, unlimited, told⟩
  refine ⟨_, ?_, ⟨config, matching, unprobed, m, j, rfl, unlimited, told⟩⟩
  rw [look_apply, h]

theorem yields_hasMemory : Yields (Mirrors c ls) (update Run.hasMemory) r true r := by
  rintro s ⟨config, matching, unprobed, m, j, rfl, unlimited, told⟩
  have reading := unlimited.reading
  obtain ⟨used, gauge, ceiling⟩ := unlimited
  refine ⟨_, ?_, ⟨config, matching, unprobed, m.available.2, j, rfl, ⟨used, gauge, ceiling⟩, told⟩⟩
  simp [Run.hasMemory, Run.availableMemory, Memory.available, reading]

theorem yields_takeBacktrackRequest : Yields (Mirrors c ls) (update Run.takeBacktrackRequest) r
    r.backtrackRequested { r with backtrackRequested := false } := by
  rintro s ⟨config, matching, unprobed, m, j, rfl, unlimited, told⟩
  exact ⟨_, rfl, ⟨config, matching, unprobed, m, j, rfl, unlimited, told⟩⟩

theorem yields_descend (h : r.depth + 1 < wordLimit) :
    Yields (Mirrors c ls) (onRun Run.descend) r () { r with depth := r.depth + 1 } := by
  rintro s ⟨config, matching, unprobed, m, j, rfl, unlimited, told⟩
  refine ⟨_, ?_, ⟨config, matching, unprobed, m, j, rfl, unlimited, told⟩⟩
  refine onRun_eq_ok.2 ⟨_, ?_, rfl⟩
  have sum : addWords r.depth 1 = .ok (r.depth + 1) := if_pos h
  rw [Run.descend_apply, sum]

theorem yields_ascend (h : r.depth ≠ 0) :
    Yields (Mirrors c ls) (onRun Run.ascend) r () { r with depth := r.depth - 1 } := by
  rintro s ⟨config, matching, unprobed, m, j, rfl, unlimited, told⟩
  refine ⟨_, ?_, ⟨config, matching, unprobed, m, j, rfl, unlimited, told⟩⟩
  refine onRun_eq_ok.2 ⟨_, ?_, rfl⟩
  rw [Run.ascend_apply, if_neg h]

/-- A change that reads neither the memory nor the journal. -/
theorem yields_change {f : Run E P → Run E P}
    (h : ∀ m j, f { r with memory := m, journal := j } = { f r with memory := m, journal := j })
    (config : (f r).config = r.config) (matching : (f r).matching = r.matching)
    (unprobed : (f r).probeRequested = r.probeRequested)
    (journal : (f r).journal.told = r.journal.told) :
    Yields (Mirrors c ls) (change f) r () (f r) := by
  rintro s ⟨hc, hm, hp, m, j, rfl, unlimited, told⟩
  refine ⟨_, rfl, ⟨config.trans hc, matching.trans hm, unprobed.trans hp, m, j, ?_, unlimited,
    told.trans journal.symm⟩⟩
  rw [h]

theorem yields_record {e : Entry} (h : e.isTold = false) :
    Yields (Mirrors c ls) (change (Run.record e)) r () r := by
  rintro s ⟨config, matching, unprobed, m, j, rfl, unlimited, told⟩
  refine ⟨_, rfl, ⟨config, matching, unprobed, m, j.record e, rfl, unlimited, ?_⟩⟩
  rw [Journal.told_record_of_not_told h, told]

variable [Engine E] {A : Audience E P}

section Announcements

variable [Listener E P L] (hears : A.Hears c ls)

include hears

theorem yields_announce (recalls : r.Recalls) (event : Event) :
    Yields (Mirrors c ls) (announce event) r () (r.said A event) := by
  rintro s ⟨config, matching, unprobed, m, j, rfl, unlimited, told⟩
  -- The listeners hear of the event when its announcement is in the journal.
  let entry : Entry := .announced (r.bulletin A.size event)
  obtain ⟨j', tells, told'⟩ := hears.tells event (r.record entry) m (j.record entry) config matching
    recalls
  refine ⟨_, ?_, ⟨config, matching, unprobed, m, j', rfl, unlimited, ?_⟩⟩
  · simp only [announce, bind, EStateM.bind, modify, modifyGet, MonadStateOf.modifyGet,
      EStateM.modifyGet_apply, broadcast]
    have bulletin : bulletin event
        { run := { r with memory := m, journal := j }, listeners := ls, reporter := none } =
          r.bulletin A.size event := by
      rw [hears.size]
      rfl
    rw [bulletin]
    have tells' : Listener.tellAll event ls
        (({ r with memory := m, journal := j } : Run E P).record entry) = _ := tells
    rw [tells']
    rfl
  · rw [told', Journal.told_record_of_told rfl, told]
    exact (Journal.told_record_of_told rfl).symm

theorem recalls_said {event : Event} (config : r.config = c) (recalls : r.Recalls) :
    (r.said A event).Recalls :=
  hears.recalls event _ config recalls

omit hears in
theorem yields_pollProbe (unprobed : r.probeRequested = false) :
    Yields (Mirrors c ls) (pollProbe (E := E) (P := P) (L := L)) r () r := by
  have take : Yields (Mirrors c ls) (update (L := L) Run.takeProbeRequest) r false r := by
    rintro s ⟨config, matching, -, m, j, rfl, unlimited, told⟩
    refine ⟨_, ?_, ⟨config, matching, unprobed, m, j, rfl, unlimited, told⟩⟩
    simp [Run.takeProbeRequest, unprobed]
  exact take.bind (.pure () r)

theorem yields_announceConstraint (recalls : r.Recalls) (details : String) :
    Yields (Mirrors c ls) (announceConstraint details) r () (r.constrained A details) := by
  refine (yields_change (fun _ _ => rfl) rfl rfl rfl rfl).bind ?_
  exact yields_announce (r := { r with lastConstraint := some details }) hears recalls
    .searchConstraintHit

end Announcements

section Moves

theorem yields_stepForward : Yields (Mirrors c ls) (update (L := L) Run.stepForward) r
    (Engine.forward r.engine).1 r.stepForward.2 := by
  rintro s ⟨config, matching, unprobed, m, j, rfl, unlimited, told⟩
  rw [Run.stepForward_eq]
  refine ⟨_, ?_, ⟨config, matching, unprobed, m, r.stepJournal j, rfl, unlimited,
    Run.told_stepJournal_congr told⟩⟩
  rw [update_apply, Run.stepForward_eq]
  rfl

theorem yields_backtrack : Yields (Mirrors c ls) (backtrack (E := E) (L := L)) r
    (Engine.backtrack r.engine).1 r.forgetQuery.stepBack.2 := by
  rintro s ⟨config, matching, unprobed, m, j, rfl, unlimited, told⟩
  refine ⟨_, rfl, ⟨config, matching, unprobed, m, _, rfl, unlimited, ?_⟩⟩
  exact Journal.told_record_congr told _

/-- The properties are such that a run breaks one of them exactly when its engine is in a bad
    state, and that they do not change while none is broken. -/
structure Guards (E : Type) {P : Type} [Engine E] [Checkable E P] (ps : List (Watched P))
    (bad : StateId → Bool) : Prop where
  holds : ∀ r : Run E P, bad (Engine.stateId r.engine) = false → Run.checkUntil r ps = (ps, none)
  fails : ∀ s, bad s = true → ∃ ps' w,
    ∀ r : Run E P, Engine.stateId r.engine = s → Run.checkUntil r ps = (ps', some w)

/-- Without properties no state is bad. -/
theorem guards_nil [Checkable E P] : Guards E ([] : List (Watched P)) (fun _ => false) :=
  ⟨fun _ _ => rfl, nofun⟩

variable [Checkable E P] {ps : List (Watched P)} {bad : StateId → Bool}

theorem yields_checkProperties (ps' : List (Watched P)) (w : Option (Watched P))
    (check : ∀ r' : Run E P, r'.engine = r.engine → Run.checkUntil r' r.properties = (ps', w)) :
    Yields (Mirrors c ls) (update (L := L) Run.checkProperties) r w.isSome
      (match w with
        | some w => ({ r with properties := ps' } : Run E P).violate w
        | none => { r with properties := ps' }) := by
  rintro s ⟨config, matching, unprobed, m, j, rfl, unlimited, told⟩
  have checked := check { r with memory := m, journal := j } rfl
  cases w with
  | none =>
    refine ⟨_, ?_, ⟨config, matching, unprobed, m, j, rfl, unlimited, told⟩⟩
    simp [Run.checkProperties, checked]
  | some w =>
    refine ⟨_, ?_, ⟨config, matching, unprobed, m, _, rfl, unlimited, Journal.told_record_congr told _⟩⟩
    simp [Run.checkProperties, checked]
    rfl

/-- A step forward, given what the check of the properties after it says. -/
theorem yields_forward_checked (ps' : List (Watched P)) (w : Option (Watched P))
    (check : ∀ r' : Run E P, Engine.stateId r'.engine = Engine.stateId (Engine.forward r.engine).2 →
      Run.checkUntil r' r.properties = (ps', w)) :
    Yields (Mirrors c ls) (forward (E := E) (P := P) (L := L)) r (Engine.forward r.engine).1
      (match w with
        | some w => r.broken ps' w
        | none => { r.stepped with properties := ps' }) := by
  refine (yields_change (fun _ _ => rfl) rfl rfl rfl rfl).bind ?_
  refine yields_stepForward.bind ?_
  rw [Run.stepForward_eq]
  have checked : Yields (Mirrors c ls) (update Run.checkProperties) r.stepped _ _ :=
    yields_checkProperties (r := r.stepped) ps' w fun r' engine =>
      check r' (congrArg Engine.stateId engine)
  cases w <;> exact checked.bind (.pure _ _)

theorem yields_forward (guards : Guards E ps bad) (properties : r.properties = ps)
    (good : bad (Engine.stateId (Engine.forward r.engine).2) = false) :
    Yields (Mirrors c ls) (forward (E := E) (P := P) (L := L)) r (Engine.forward r.engine).1
      r.stepped := by
  subst properties
  exact yields_forward_checked r.properties none fun r' state => guards.holds r' (state ▸ good)

theorem yields_forward_violated (guards : Guards E ps bad) (properties : r.properties = ps)
    (violated : bad (Engine.stateId (Engine.forward r.engine).2) = true) :
    ∃ ps' w, Yields (Mirrors c ls) (forward (E := E) (P := P) (L := L)) r
      (Engine.forward r.engine).1 (r.broken ps' w) := by
  obtain ⟨ps', w, fails⟩ := guards.fails _ violated
  subst properties
  exact ⟨ps', w, yields_forward_checked ps' (some w) fails⟩

omit [Checkable E P] in
theorem yields_isNew {answer : Bool} {depths : DepthTable} (matching : r.matching = true)
    (recalls : r.Recalls) (judge : r.judge = .ok (answer, depths)) :
    Yields (Mirrors c ls) (isNew (E := E) (P := P) (L := L)) r answer
      (r.judged answer depths) := by
  rintro s ⟨config, -, unprobed, m, j, rfl, unlimited, told⟩
  refine ⟨_, onRun_eq_ok.2 ⟨_, ?_, rfl⟩, ⟨config, matching, unprobed, m, j, rfl, unlimited, told⟩⟩
  exact Run.isNew_apply (r := { r with memory := m, journal := j }) matching recalls judge

omit [Checkable E P] in
theorem yields_restore {snapshot : Snapshot (Engine.Saved E)} {strategy : String}
    (accepted : (Engine.restore snapshot r.engine).1 = true) :
    Yields (Mirrors c ls) (restore (E := E) (P := P) (L := L) snapshot strategy) r ()
      { r with
        lastQuery := none
        atViolation := false
        engine := (Engine.restore snapshot r.engine).2
        depth := snapshot.pathLength
        journal := r.journal.record (.moved .restore r.depth true) } := by
  rintro s ⟨config, matching, unprobed, m, j, rfl, unlimited, told⟩
  refine ⟨_, ?_, ⟨config, matching, unprobed, m, _, rfl, unlimited, Journal.told_record_congr told _⟩⟩
  simp only [restore, bind, EStateM.bind, change, update, Run.stepTo, accepted, if_true]
  rfl

end Moves

section Conduct

omit [Engine E] in
theorem yields_launch (matching : r.matching = true) (strategy : String) :
    Yields (Mirrors c ls) (launch (E := E) (P := P) (L := L) strategy) r () r := by
  refine (yields_look fun _ _ => rfl).bind ?_
  have launched : Yields (Mirrors c ls) (do
      change (L := L) (Run.record (.launched strategy))
      change fun r : Run E P => { r with matching := true }) r () r := by
    refine (yields_record rfl).bind ?_
    -- Matching is switched on again, which it was.
    have same : ({ r with matching := true } : Run E P) = r := by rw [← matching]
    have changed : Yields (Mirrors c ls) (change (L := L) fun r => { r with matching := true }) r ()
        { r with matching := true } :=
      yields_change (fun _ _ => rfl) rfl matching.symm rfl rfl
    rwa [same] at changed
  split
  · exact (yields_record rfl).bind launched
  · exact launched

omit [Engine E] in
theorem yields_conclude (reason : StopReason) :
    Yields (Mirrors c ls) (conclude (E := E) (P := P) (L := L) reason) r
      { reason, depth := r.depth, errors := r.violations.length, lastConstraint := r.lastConstraint }
      { r with done := true } := by
  refine (yields_change (fun _ _ => rfl) rfl rfl rfl rfl).bind ?_
  exact yields_look (r := { r with done := true }) fun _ _ => rfl

end Conduct

end Search

/-! ## Listeners that keep tallies -/

theorem Listener.tell_of_hear {E P L : Type} [Listener E P L] {event : Event} {l l' : L}
    {r r' : Run E P}
    (h : hear event (l, r.record (.called (Named.name l) event)) = .ok () (l', r')) :
    tell event l r = { verdict := .ok (), listener := l', run := r' } := by
  simp only [tell, h]

namespace Audience

variable {E P : Type} [Engine E]

/-- Nobody listens. -/
def nobody : Audience E P :=
  { size := 0, tallies := fun _ r => r.tallies, query := fun _ r => r.lastQuery }

theorem nobody_hears {L : Type} [Listener E P L] (c : Config) :
    (nobody : Audience E P).Hears c ([] : List L) :=
  ⟨rfl, fun _ _ _ j _ _ _ => ⟨j, rfl, rfl⟩, fun _ _ _ recalls => recalls⟩

end Audience

namespace Statistics

variable {E P : Type} [Engine E]

/-- What a statistics listener makes of its tally when it hears of an event. -/
def tick (event : Event) (r : Run E P) : Tally → Tally :=
  if event = .stateAdvanced then fun t =>
    countState (Engine.isNew r.engine) (Engine.isEnd r.engine) (count event r.depth t)
  else count event r.depth

/-- A statistics listener that keeps the tally with a number. -/
def audience (i : Nat) : Audience E P :=
  { size := 1
    tallies := fun event r => r.tallies.modify i (tick event r)
    query := fun event r =>
      if event = .stateAdvanced then r.asked (Engine.isNew r.engine) else r.lastQuery }

theorem update_apply {r : Run E P} {i : Nat} (event : Event)
    (plain : r.config.matchByMinDepth = false) (matching : r.matching = true)
    (recalls : r.Recalls) : update i event r = .ok () (r.heard (audience i) event) := by
  let counted := r.modifyTally i (count event r.depth)
  -- Only after a step forward does the listener ask for newness.
  by_cases advanced : event = .stateAdvanced
  · have isNew : Run.isNew counted = .ok (Engine.isNew r.engine)
        { counted with lastQuery := r.asked (Engine.isNew r.engine) } :=
      Run.isNew_apply (r := counted) matching recalls (Run.judge_of_plain (r := counted) plain)
    subst advanced
    simp only [update, bind, EStateM.bind, modify, modifyGet, MonadStateOf.modifyGet,
      EStateM.modifyGet_apply, if_true]
    rw [show r.modifyTally i (count .stateAdvanced r.depth) = counted from rfl, isNew]
    simp [Run.heard, audience, tick, counted, Run.modifyTally, List.modify_modify_eq, Function.comp_def]
  · simp only [update, bind, EStateM.bind, modify, modifyGet, MonadStateOf.modifyGet,
      EStateM.modifyGet_apply, advanced, if_false]
    simp [Run.heard, audience, tick, advanced, Run.modifyTally, pure, EStateM.pure]

theorem audience_hears {c : Config} (plain : c.matchByMinDepth = false) (i : Nat) :
    (audience i : Audience E P).Hears c [({ tally := i } : Statistics)] := by
  refine ⟨rfl, ?_, ?_⟩
  · intro event r m j config matching recalls
    let entry : Entry := .called "statistics" event
    have updated := update_apply (r := { r with memory := m, journal := j.record entry }) (i := i) event
      (config ▸ plain) matching recalls
    refine ⟨j.record entry, ?_, Journal.told_record_of_not_told rfl⟩
    have hear : Listener.hear event
        (({ tally := i } : Statistics), ({ r with memory := m, journal := j.record entry } : Run E P)) =
          .ok () ({ tally := i },
            { r.heard (audience i) event with memory := m, journal := j.record entry }) := by
      show Listener.onRun (update i event) _ = _
      rw [Listener.onRun, updated]
      rfl
    have tells : Listener.tell event ({ tally := i } : Statistics)
        ({ r with memory := m, journal := j } : Run E P) =
        { verdict := .ok (), listener := { tally := i },
          run := { r.heard (audience i) event with memory := m, journal := j.record entry } } :=
      Listener.tell_of_hear hear
    simp only [Listener.tellAll, tells]
  · intro event r config recalls q hq
    simp only [Run.heard, audience] at hq
    split at hq
    · exact Run.recalls_asked (r := r) (config ▸ plain) recalls q hq
    · exact recalls q hq

end Statistics

end Statewalk
