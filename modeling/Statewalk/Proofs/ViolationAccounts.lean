import Statewalk.Proofs.GraphRuns
import Statewalk.Proofs.Restraint
import Statewalk.Proofs.StaticProperties

/-! # Accounts of violations

Every violation that a run over a graph records is announced, is about to be, or was missed.  One is
missed only where the engine could not go on, and there a property is broken only in the initial
state: any other state was entered before, and left at once if it broke a property.
-/

namespace Statewalk

/-- The numbers of the violations that were announced, in order. -/
def Journal.announcedViolations (j : Journal) : List Nat :=
  (j.bulletins.filter (·.event = .propertyViolated)).map (·.violations)

namespace GraphEngine

variable {g : StateGraph} {e e' : GraphEngine} {bad : StateId → Bool} {f top : Frame} {rest : List Frame}

theorem eq_of_marked (marked : Engine.Marked e e') : e' = { e with ignored := e'.ignored } := by
  induction marked with
  | refl => rfl
  | tail _ last ih =>
    obtain ⟨mark, rfl⟩ := last
    rw [ih]
    rfl

theorem isNew_marked (marked : Engine.Marked e e') : e'.isNew = e.isNew := by
  rw [eq_of_marked marked]

/-- All frames but the lowest are at states that are not bad. -/
def Guarded (bad : StateId → Bool) (fs : List Frame) : Prop :=
  ∀ f ∈ fs.dropLast, bad f.state = false

namespace Guarded

theorem tail (h : Guarded bad (f :: rest)) : Guarded bad rest := by
  intro f' member
  cases rest with
  | nil => cases member
  | cons top rest => exact h f' (by simp [member])

theorem cons (h : Guarded bad (top :: rest)) (good : bad f.state = false) :
    Guarded bad (f :: top :: rest) := by
  intro f' member
  rw [List.dropLast_cons_cons] at member
  cases List.mem_cons.1 member with
  | inl eq => exact eq ▸ good
  | inr member => exact h f' member

theorem next (h : Guarded bad (top :: rest)) : Guarded bad (top.next :: rest) := by
  cases rest with
  | nil => simp [Guarded]
  | cons below rest =>
    have good : bad top.state = false := h top (by simp)
    exact h.tail.cons good

/-- Where a guarded stack ends in a bad state, that is its root. -/
theorem root (h : Guarded bad (top :: rest)) (broken : bad top.state = true) : rest = [] := by
  cases rest with
  | nil => rfl
  | cons below rest =>
    have good := h top (by simp)
    rw [broken] at good
    cases good

end Guarded

end GraphEngine

namespace Run

/-! ## Accounts -/

section Accounts

variable {E P : Type} {missed pending : List Nat} {r r' : Run E P}

/-- The recorded violations are those that were announced, those that are about to be and those that
    were missed. -/
structure Accounted (missed pending : List Nat) (r : Run E P) : Prop where
  ids : r.violations.map (·.id) = List.range' 1 r.violations.length
  perm : (r.journal.announcedViolations ++ pending ++ missed).Perm (List.range' 1 r.violations.length)

theorem Accounted.congr (h : Accounted missed pending r) (violations : r'.violations = r.violations)
    (announced : r'.journal.announcedViolations = r.journal.announcedViolations) :
    Accounted missed pending r' := by
  constructor
  · rw [violations]
    exact h.ids
  · rw [violations, announced]
    exact h.perm

theorem Accounted.nothing (h : Accounted missed pending r) (none : r.violations = []) :
    pending = [] ∧ missed = [] := by
  have perm := h.perm
  rw [none] at perm
  have empty := perm.eq_nil
  simp only [List.append_eq_nil_iff] at empty
  exact ⟨empty.1.2, empty.2⟩

variable [Engine E]

/-- The announcement of a violation is about the last one. -/
theorem Accounted.announced (h : Accounted missed [r.violations.length] r) (n : Nat) :
    Accounted missed [] (r.record (.announced (r.bulletin n .propertyViolated))) := by
  have entered : (r.journal.record (.announced (r.bulletin n .propertyViolated))).announcedViolations =
      r.journal.announcedViolations ++ [r.violations.length] := by
    simp [Journal.announcedViolations, Entry.bulletin?, bulletin]
  refine ⟨h.ids, ?_⟩
  show ((r.journal.record _).announcedViolations ++ [] ++ missed).Perm _
  rw [entered, List.append_nil]
  exact h.perm

theorem announcedViolations_record {event : Event} (other : event ≠ .propertyViolated) (n : Nat) :
    (r.record (.announced (r.bulletin n event))).journal.announcedViolations =
      r.journal.announcedViolations := by
  simp [record, Journal.announcedViolations, Entry.bulletin?, bulletin, other]

/-- A new violation is to be announced, or missed. -/
theorem Accounted.violate [Property P] (h : Accounted missed [] r) (w : Watched P) :
    (r.violate w).Accounted missed [(r.violate w).violations.length] ∧
      (r.violate w).Accounted (missed ++ [(r.violate w).violations.length]) [] := by
  have length : (r.violate w).violations.length = r.violations.length + 1 := by
    simp [Run.violate, record]
  have announced : (r.violate w).journal.announcedViolations = r.journal.announcedViolations := by
    simp [Run.violate, record, Journal.announcedViolations, Entry.bulletin?]
  have ids : (r.violate w).violations.map (·.id) = List.range' 1 (r.violations.length + 1) := by
    rw [List.range'_1_concat, ← h.ids]
    simp [Run.violate, record, Nat.add_comm]
  have more : (List.range' 1 r.violations.length ++ [r.violations.length + 1]).Perm
      (List.range' 1 (r.violations.length + 1)) := by
    rw [List.range'_1_concat, Nat.add_comm 1]
  have perm := h.perm
  rw [List.append_nil] at perm
  refine ⟨⟨by rw [length]; exact ids, ?_⟩, ⟨by rw [length]; exact ids, ?_⟩⟩
  · rw [length, announced]
    refine List.Perm.trans ?_ ((perm.append_right _).trans more)
    rw [List.append_assoc, List.append_assoc]
    exact List.perm_append_comm.append_left _
  · rw [length, announced, List.append_nil, ← List.append_assoc]
    exact (perm.append_right _).trans more

end Accounts

/-! ## Runs over a graph -/

open GraphEngine

variable {g : StateGraph} {c : Config} {bad : StateId → Bool} {missed pending : List Nat}
  {r r' r'' : Run GraphEngine Subject}

/-- The second run differs from the first in nothing that accounts of violations rest on. -/
structure Alike (r r' : Run GraphEngine Subject) : Prop where
  engine : ∃ ignored, r'.engine = { r.engine with ignored } := by exact ⟨_, rfl⟩
  config : r'.config = r.config := by rfl
  matching : r'.matching = r.matching := by rfl
  properties : r'.properties = r.properties := by rfl
  violations : r'.violations = r.violations := by rfl
  atViolation : r'.atViolation = r.atViolation := by rfl
  announced : r'.journal.announcedViolations = r.journal.announcedViolations := by rfl
  requested : r.backtrackRequested = true → r'.backtrackRequested = true := by exact id
  done : r.done = true → r'.done = true := by exact id
  recalls : r.config.matchByMinDepth = false → r.Recalls → r'.Recalls := by exact fun _ => id

namespace Alike

theorem trans (h : Alike r r') (h' : Alike r' r'') : Alike r r'' where
  engine := by
    obtain ⟨_, eq⟩ := h.engine
    obtain ⟨ignored, eq'⟩ := h'.engine
    exact ⟨ignored, by rw [eq', eq]⟩
  config := h'.config.trans h.config
  matching := h'.matching.trans h.matching
  properties := h'.properties.trans h.properties
  violations := h'.violations.trans h.violations
  atViolation := h'.atViolation.trans h.atViolation
  announced := h'.announced.trans h.announced
  requested requested := h'.requested (h.requested requested)
  done done := h'.done (h.done done)
  recalls plain recalls := h'.recalls (h.config ▸ plain) (h.recalls plain recalls)

theorem of_attended (attended : r.Attended r') : Alike r r' where
  engine := ⟨_, eq_of_marked attended.engine⟩
  config := attended.config
  matching := attended.matching
  properties := attended.properties
  violations := attended.violations
  atViolation := attended.atViolation
  announced := by rw [Journal.announcedViolations, attended.bulletins]; rfl
  requested := attended.requested
  done := attended.done
  recalls plain recalls q query := by
    refine ⟨attended.config ▸ plain, ?_⟩
    have same : Engine.isNew r'.engine = Engine.isNew r.engine := isNew_marked attended.engine
    cases attended.query plain with
    | inl kept => rw [same]; exact (recalls q (kept ▸ query)).2
    | inr asked =>
      obtain ⟨e, q', marked, query', answer⟩ := asked
      cases query'.symm.trans query
      rw [answer, same]
      exact isNew_marked marked

theorem of_announced {event : Event} (other : event ≠ .propertyViolated) {n : Nat}
    (attended : (r.record (.announced (r.bulletin n event))).Attended r') : Alike r r' := by
  have entered : Alike r (r.record (.announced (r.bulletin n event))) :=
    { announced := announcedViolations_record other n }
  exact entered.trans (of_attended attended)

theorem frames (h : Alike r r') : r'.engine.frames = r.engine.frames := by
  obtain ⟨_, eq⟩ := h.engine
  rw [eq]

theorem isNew (h : Alike r r') : r'.engine.isNew = r.engine.isNew := by
  obtain ⟨_, eq⟩ := h.engine
  rw [eq]

end Alike

/-- The run is over the graph, its properties are broken in the bad states, and its violations are
    accounted for; some are missed only if the initial state is bad. -/
structure Policed (g : StateGraph) (c : Config) (bad : StateId → Bool) (missed pending : List Nat)
    (r : Run GraphEngine Subject) : Prop where
  wellFormed : WellFormed g r.engine
  config : r.config = c
  matching : r.matching = true
  vets : Vets g bad r.properties
  accounted : r.Accounted missed pending
  rooted : missed ≠ [] → bad 0 = true

theorem Policed.congr (h : Policed g c bad missed pending r) (wellFormed : WellFormed g r'.engine)
    (config : r'.config = r.config) (matching : r'.matching = r.matching)
    (properties : r'.properties = r.properties) (violations : r'.violations = r.violations)
    (bulletins : r'.journal.bulletins = r.journal.bulletins) : Policed g c bad missed pending r' where
  wellFormed := wellFormed
  config := config.trans h.config
  matching := matching.trans h.matching
  vets := properties ▸ h.vets
  accounted := h.accounted.congr violations (by rw [Journal.announcedViolations, bulletins]; rfl)
  rooted := h.rooted

theorem Policed.alike (h : Policed g c bad missed pending r) (alike : Alike r r') :
    Policed g c bad missed pending r' where
  wellFormed := by
    obtain ⟨_, eq⟩ := alike.engine
    rw [eq]
    exact ⟨h.wellFormed.graph, h.wellFormed.stacked, h.wellFormed.application, h.wellFormed.threads⟩
  config := alike.config.trans h.config
  matching := alike.matching.trans h.matching
  vets := alike.properties ▸ h.vets
  accounted := h.accounted.congr alike.violations alike.announced
  rooted := h.rooted

/-- At most one violation was missed, and if so, the engine is above the root. -/
def Lone (c : Config) (missed : List Nat) (fs : List Frame) : Prop :=
  c.matchByMinDepth = false → missed = [] ∨ missed.length = 1 ∧ 2 ≤ fs.length

/-- The engine may go on from its current state.  If the search ends with the first violation, there
    was none. -/
structure Open (g : StateGraph) (c : Config) (bad : StateId → Bool) (missed : List Nat)
    (r : Run GraphEngine Subject) : Prop where
  policed : Policed g c bad missed [] r
  guarded : Guarded bad r.engine.frames
  clear : c.continueOnViolation = false → r.violations = []
  lone : Lone c missed r.engine.frames

/-- The engine is in a state that it will come back from. -/
structure Inside (g : StateGraph) (c : Config) (bad : StateId → Bool) (missed pending : List Nat)
    (r : Run GraphEngine Subject) : Prop where
  policed : Policed g c bad missed pending r
  guarded : Guarded bad r.engine.frames.tail
  lone : Lone c missed r.engine.frames.tail

/-- As before, and the search does not end here. -/
structure Passing (g : StateGraph) (c : Config) (bad : StateId → Bool) (missed : List Nat)
    (r : Run GraphEngine Subject) : Prop where
  inside : Inside g c bad missed [] r
  clear : c.continueOnViolation = false → r.violations = []

/-- The engine is in a bad state. -/
structure Struck (g : StateGraph) (c : Config) (bad : StateId → Bool) (missed pending : List Nat)
    (r : Run GraphEngine Subject) : Prop where
  inside : Inside g c bad missed pending r
  violated : r.atViolation = true
  single : c.continueOnViolation = false → r.done = true ∧ missed = []

/-- The engine is in a state that is not bad. -/
structure Calm (g : StateGraph) (c : Config) (bad : StateId → Bool) (missed : List Nat)
    (r : Run GraphEngine Subject) : Prop where
  passing : Passing g c bad missed r
  guarded : Guarded bad r.engine.frames
  above : 2 ≤ r.engine.frames.length
  unviolated : r.atViolation = false

/-- What a step leads to: a state that is not bad, or one whose violation is to be announced. -/
inductive Entered (g : StateGraph) (c : Config) (bad : StateId → Bool) (missed : List Nat)
    (r : Run GraphEngine Subject) : Prop where
  | good : Calm g c bad missed r → Entered g c bad missed r
  | broken : Struck g c bad missed [r.violations.length] r → Entered g c bad missed r

/-- The root has nothing left to enter. -/
structure Spent (r : Run GraphEngine Subject) : Prop where
  lowest : r.engine.frames.length = 1
  known : r.engine.isNew = false
  recalls : r.config.matchByMinDepth = false → r.Recalls

/-- What a failed attempt to step leads to: nothing, or a violation of the initial state that nobody
    is told of. -/
inductive Halted (g : StateGraph) (c : Config) (bad : StateId → Bool) (missed : List Nat)
    (r : Run GraphEngine Subject) : Prop where
  | good : Open g c bad missed r → Halted g c bad missed r
  | broken {id : Nat} : Policed g c bad (missed ++ [id]) [] r → Spent r →
      (c.matchByMinDepth = false → missed = []) → (c.continueOnViolation = false → r.done = true) →
      Halted g c bad missed r

/-- The accounts of a run that stops for a reason. -/
structure Settled (g : StateGraph) (c : Config) (bad : StateId → Bool) (missed : List Nat)
    (reason : StopReason) (r : Run GraphEngine Subject) : Prop where
  policed : Policed g c bad missed [] r
  few : c.matchByMinDepth = false → missed.length ≤ 1
  single : c.continueOnViolation = false → r.violations ≠ [] →
    reason = if missed = [] then .propertyViolated else .terminated

theorem Lone.few {fs : List Frame} (h : Lone c missed fs) (plain : c.matchByMinDepth = false) :
    missed.length ≤ 1 := by
  cases h plain with
  | inl none => simp [none]
  | inr one => omega

section Alike

variable (same : Alike r r')

include same

theorem Open.alike (h : Open g c bad missed r) : Open g c bad missed r' :=
  ⟨h.policed.alike same, same.frames ▸ h.guarded, fun single => same.violations ▸ h.clear single,
    same.frames ▸ h.lone⟩

theorem Inside.alike (h : Inside g c bad missed pending r) : Inside g c bad missed pending r' :=
  ⟨h.policed.alike same, same.frames ▸ h.guarded, same.frames ▸ h.lone⟩

theorem Passing.alike (h : Passing g c bad missed r) : Passing g c bad missed r' :=
  ⟨h.inside.alike same, fun single => same.violations ▸ h.clear single⟩

theorem Struck.alike (h : Struck g c bad missed pending r) : Struck g c bad missed pending r' :=
  ⟨h.inside.alike same, same.atViolation.trans h.violated,
    fun single => ⟨same.done (h.single single).1, (h.single single).2⟩⟩

theorem Calm.alike (h : Calm g c bad missed r) : Calm g c bad missed r' :=
  ⟨h.passing.alike same, same.frames ▸ h.guarded, same.frames ▸ h.above,
    same.atViolation.trans h.unviolated⟩

theorem Entered.alike (h : Entered g c bad missed r) : Entered g c bad missed r' := by
  cases h with
  | good calm => exact .good (calm.alike same)
  | broken struck => exact .broken (same.violations ▸ struck.alike same)

theorem Spent.alike (h : Spent r) : Spent r' :=
  ⟨same.frames ▸ h.lowest, same.isNew.trans h.known, fun plain =>
    have plain := same.config ▸ plain
    same.recalls plain (h.recalls plain)⟩

theorem Halted.alike (h : Halted g c bad missed r) : Halted g c bad missed r' := by
  cases h with
  | good free => exact .good (free.alike same)
  | broken policed spent none single =>
    exact .broken (policed.alike same) (spent.alike same) none fun ends => same.done (single ends)

theorem Settled.alike {reason : StopReason} (h : Settled g c bad missed reason r) :
    Settled g c bad missed reason r' :=
  ⟨h.policed.alike same, h.few, fun single some => h.single single (same.violations ▸ some)⟩

end Alike

/-! ## Steps -/

theorem checkProperties_cases (wellFormed : WellFormed g r.engine) (vets : Vets g bad r.properties) :
    ∃ ps, Vets g bad ps ∧
      (bad r.engine.current = false ∧ r.checkProperties.2 = { r with properties := ps } ∨
        bad r.engine.current = true ∧
          ∃ w, r.checkProperties.2 = ({ r with properties := ps } : Run GraphEngine Subject).violate w) := by
  obtain ⟨found, vets'⟩ := vets.checkUntil wellFormed
  rcases checked : checkUntil r r.properties with ⟨ps, violated⟩
  rw [checked] at found vets'
  refine ⟨ps, vets', ?_⟩
  simp only [checkProperties, checked]
  cases violated with
  | none => exact .inl ⟨found.symm, rfl⟩
  | some w => exact .inr ⟨found.symm, w, rfl⟩

/-- The run after a check in which a property was broken. -/
structure Broken (g : StateGraph) (c : Config) (bad : StateId → Bool) (missed : List Nat)
    (r : Run GraphEngine Subject) : Prop where
  toAnnounce : Policed g c bad missed [r.violations.length] r
  toMiss : bad 0 = true → Policed g c bad (missed ++ [r.violations.length]) [] r
  atViolation : r.atViolation = true
  single : c.continueOnViolation = false → r.done = true

theorem Policed.checkProperties (h : Policed g c bad missed [] r) :
    r.checkProperties.2.engine = r.engine ∧ r.checkProperties.2.lastQuery = r.lastQuery ∧
      (bad r.engine.current = false ∧ Policed g c bad missed [] r.checkProperties.2 ∧
          r.checkProperties.2.violations = r.violations ∧
          r.checkProperties.2.atViolation = r.atViolation ∨
        bad r.engine.current = true ∧ Broken g c bad missed r.checkProperties.2) := by
  obtain ⟨ps, vets, ⟨good, checked⟩ | ⟨broken, w, checked⟩⟩ := checkProperties_cases h.wellFormed h.vets
  · rw [checked]
    refine ⟨rfl, rfl, .inl ⟨good, ?_, rfl, rfl⟩⟩
    exact ⟨h.wellFormed, h.config, h.matching, vets, h.accounted.congr rfl rfl, h.rooted⟩
  · rw [checked]
    have accounted : Accounted missed [] ({ r with properties := ps } : Run GraphEngine Subject) :=
      h.accounted.congr rfl rfl
    obtain ⟨announced, skipped⟩ := accounted.violate w
    refine ⟨rfl, rfl, .inr ⟨broken, ?_, fun root => ?_, rfl, fun single => ?_⟩⟩
    · exact ⟨h.wellFormed, h.config, h.matching, vets, announced, h.rooted⟩
    · exact ⟨h.wellFormed, h.config, h.matching, vets, skipped, fun _ => root⟩
    · simp [violate, record, h.config, single]

theorem Policed.stepped (h : Policed g c bad missed [] r)
    (wellFormed : WellFormed g (Engine.forward r.engine).2) : Policed g c bad missed [] r.stepped :=
  h.congr wellFormed rfl rfl rfl rfl bulletins_stepped

/-- A step leads into a state, which is checked. -/
theorem Open.entered (h : Open g c bad missed r) {top : Frame} {rest : List Frame} {edge : Edge}
    (enters : Enters g r.engine top rest edge) :
    Entered g c bad missed r.stepped.checkProperties.2 := by
  have guarded := h.guarded
  rw [enters.frames] at guarded
  have engine : r.stepped.engine = enter edge { r.engine with frames := top.next :: rest } :=
    congrArg Prod.snd enters.forward
  have stepped : Policed g c bad missed [] r.stepped :=
    h.policed.stepped (by rw [enters.forward]; exact enters.wellFormed)
  obtain ⟨sameEngine, -, ⟨good, policed, violations, atViolation⟩ | ⟨bad', broken⟩⟩ :=
    stepped.checkProperties
  all_goals
    have frames : r.stepped.checkProperties.2.engine.frames =
        GraphEngine.entered edge { r.engine with frames := top.next :: rest } :: top.next :: rest := by
      rw [sameEngine, engine]
      rfl
    have lone : Lone c missed r.stepped.checkProperties.2.engine.frames.tail := by
      have lone := h.lone
      rw [enters.frames] at lone
      rw [frames]
      exact lone
    have tail : Guarded bad r.stepped.checkProperties.2.engine.frames.tail := by
      rw [frames]
      exact guarded.next
  · have clear : c.continueOnViolation = false → r.stepped.checkProperties.2.violations = [] := by
      intro single
      rw [violations]
      exact h.clear single
    refine .good ⟨⟨⟨policed, tail, lone⟩, clear⟩, ?_, ?_, atViolation⟩
    · rw [frames]
      rw [engine] at good
      exact guarded.next.cons good
    · simp [frames]
  · refine .broken ⟨⟨broken.toAnnounce, tail, lone⟩, broken.atViolation, fun single => ?_⟩
    exact ⟨broken.single single, (h.policed.accounted.nothing (h.clear single)).2⟩

/-- An attempt to step that failed is followed by a check all the same. -/
theorem Open.halted (h : Open g c bad missed r) {top : Frame} {rest : List Frame}
    (frames : r.engine.frames = top :: rest) (refused : Engine.forward r.engine = (false, r.engine.stall)) :
    Halted g c bad missed r.stepped.checkProperties.2 := by
  have guarded := h.guarded
  have engine : r.stepped.engine = r.engine.stall := congrArg Prod.snd refused
  have current : r.stepped.engine.current = top.state := by
    rw [engine]
    exact current_of_frames frames
  have stepped : Policed g c bad missed [] r.stepped :=
    h.policed.stepped (by rw [refused]; exact h.policed.wellFormed.stall)
  obtain ⟨sameEngine, sameQuery, ⟨-, policed, violations, -⟩ | ⟨bad', broken⟩⟩ := stepped.checkProperties
  all_goals
    have sameFrames : r.stepped.checkProperties.2.engine.frames = r.engine.frames := by
      rw [sameEngine, engine]
      rfl
  · exact .good ⟨policed, sameFrames ▸ guarded, fun single => violations ▸ h.clear single,
      sameFrames ▸ h.lone⟩
  · rw [current] at bad'
    rw [frames] at guarded
    -- Only the root can be bad, and it was not missed before.
    obtain rfl := guarded.root bad'
    have root : top.state = 0 := by
      have stacked := h.policed.wellFormed.stacked
      rw [frames] at stacked
      generalize r.engine.path.recent = transitions at stacked
      cases stacked with
      | root root _ => exact root
    have none (plain : c.matchByMinDepth = false) : missed = [] := by
      cases h.lone plain with
      | inl none => exact none
      | inr deep =>
        rw [frames] at deep
        simp at deep
    refine .broken (broken.toMiss (root ▸ bad')) ⟨?_, ?_, fun _ => ?_⟩ none broken.single
    · rw [sameFrames, frames]
      rfl
    · rw [sameEngine, engine]
      rfl
    · exact recalls_of_none sameQuery

/-- A violation that is announced is accounted for; then the properties may be reset. -/
theorem Struck.announced (h : Struck g c bad missed [r.violations.length] r) (n : Nat) :
    Struck g c bad missed [] (r.record (.announced (r.bulletin n .propertyViolated))) := by
  have policed := h.inside.policed
  exact ⟨⟨⟨policed.wellFormed, policed.config, policed.matching, policed.vets,
    policed.accounted.announced n, policed.rooted⟩, h.inside.guarded, h.inside.lone⟩, h.violated, h.single⟩

theorem Struck.reset (h : Struck g c bad missed [] r) : Struck g c bad missed [] r.resetProperties := by
  have policed := h.inside.policed
  exact ⟨⟨⟨policed.wellFormed, policed.config, policed.matching, policed.vets.reset,
    policed.accounted.congr rfl rfl, policed.rooted⟩, h.inside.guarded, h.inside.lone⟩, h.violated, h.single⟩

/-- Stepping back leads to a state from where the engine may go on, unless it is at the root. -/
theorem Passing.stepBack (h : Passing g c bad missed r) :
    if r.forgetQuery.stepBack.1 then Open g c bad missed r.forgetQuery.stepBack.2
    else Settled g c bad missed .exhausted r.forgetQuery.stepBack.2 := by
  have policed := h.inside.policed
  obtain ⟨top, rest, frames⟩ := policed.wellFormed.exists_frames
  have bulletins : r.forgetQuery.stepBack.2.journal.bulletins = r.journal.bulletins := by
    simp [Run.stepBack, forgetQuery, record, Entry.bulletin?]
  cases rest with
  | nil =>
    have engine := Run.engine_stepBack_of_root frames
    rw [Run.stepBack_of_root frames]
    refine ⟨policed.congr (engine ▸ policed.wellFormed) rfl rfl rfl rfl bulletins, h.inside.lone.few, ?_⟩
    intro single some
    exact absurd (h.clear single) some
  | cons below rest =>
    have returned : Engine.backtrack r.engine = (true, popped (below :: rest) r.engine) :=
      backtrack_of_frames frames
    have engine : r.forgetQuery.stepBack.2.engine = popped (below :: rest) r.engine :=
      congrArg Prod.snd returned
    have moved : r.forgetQuery.stepBack.1 = true := congrArg Prod.fst returned
    have guarded := h.inside.guarded
    have lone := h.inside.lone
    rw [frames, List.tail_cons] at guarded lone
    rw [moved]
    refine ⟨policed.congr ?_ rfl rfl rfl rfl bulletins, ?_, h.clear, ?_⟩
    · rw [engine]
      exact policed.wellFormed.backtrack frames
    · rw [engine]
      exact guarded
    · rw [engine]
      exact lone

end Run

end Statewalk
