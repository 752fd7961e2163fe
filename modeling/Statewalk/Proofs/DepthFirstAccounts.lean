import Statewalk.Proofs.ViolationAccounts
import Statewalk.Strategy.DepthFirst

/-! # The accounts of depth-first search

What the operations of a search over a graph do to the accounts of its violations, whatever
restrained listeners do meanwhile, and the accounts along a depth-first search.
-/

namespace Statewalk

open GraphEngine Search

/-- The predicate does not tell alike runs apart. -/
def Run.Lasting (J : Run GraphEngine Subject → Prop) : Prop :=
  ∀ r r', J r → r.Alike r' → J r'

variable {L : Type} [Listener GraphEngine Subject L] {allowed : L → Prop}
  {g : StateGraph} {c : Config} {bad : StateId → Bool} {missed : List Nat}
  {J : Run GraphEngine Subject → Prop}
  (restrained : Listener.Restrained (P := Subject) (fun _ : Run GraphEngine Subject => True) allowed)

/-! ## Operations -/

namespace Search

section Lasting

variable (lasting : Run.Lasting J)

include lasting

omit [Listener GraphEngine Subject L] in
theorem leads_hasMemory : Leads (L := L) allowed J (update Run.hasMemory) fun _ => J :=
  .update fun r h => lasting r _ h (.of_attended (.hasMemory r))

omit [Listener GraphEngine Subject L] in
theorem leads_isNew : Leads (L := L) allowed J isNew fun _ => J := by
  apply Leads.onRun
  intro r h
  cases asked : Run.isNew r with
  | ok answer r' => exact lasting r r' h (.of_attended (.isNew asked))
  | error f r' => trivial

omit [Listener GraphEngine Subject L] in
theorem leads_descend : Leads (L := L) allowed J (onRun Run.descend) fun _ => J := by
  apply Leads.onRun
  apply Ensures.get
  intro r h
  cases addWords r.depth 1 with
  | ok d => exact .set (.pure fun _ eq => eq ▸ lasting r _ h {})
  | error f => exact .throw fun _ _ => trivial

omit [Listener GraphEngine Subject L] in
theorem leads_ascend : Leads (L := L) allowed J (onRun Run.ascend) fun _ => J := by
  apply Leads.onRun
  apply Ensures.get
  intro r h
  split
  · exact .throw fun _ _ => trivial
  · exact .set (.pure fun _ eq => eq ▸ lasting r _ h {})

include restrained

theorem leads_other {event : Event} (other : event ≠ .propertyViolated) :
    Leads (L := L) allowed J (announce event) fun _ => J :=
  leads_announce restrained fun r _ r' h attended => lasting r r' h (.of_announced other attended)

theorem leads_pollProbe : Leads (L := L) allowed J pollProbe fun _ => J := by
  apply Leads.bind (K := fun _ => J) (.update fun r h => lasting r _ h {})
  intro asked
  split
  · exact leads_other restrained lasting (by simp)
  · exact .pure fun _ => id

theorem leads_announceConstraint (details : String) :
    Leads (L := L) allowed J (announceConstraint details) fun _ => J := by
  apply Leads.bind (K := fun _ => J) (.change fun r h => lasting r _ h {})
  exact fun _ => leads_other restrained lasting (by simp)

theorem leads_announceMemoryLimit :
    Leads (L := L) allowed J announceMemoryLimit fun _ => J := by
  apply Leads.bind (Leads.look.imp fun _ _ h => h.1)
  exact fun _ => leads_announceConstraint restrained lasting _

end Lasting

omit [Listener GraphEngine Subject L] in
/-- The engine follows an edge or has none left; the properties are checked in either case. -/
theorem leads_forward : Leads (L := L) allowed (Run.Open g c bad missed) forward fun moved r =>
    if moved then r.Entered g c bad missed else r.Halted g c bad missed := by
  apply Leads.bind (K := fun _ r => ∃ r₀, Run.Open g c bad missed r₀ ∧
    r = { r₀ with atViolation := false, lastQuery := none })
  · exact .change fun r h => ⟨r, h, rfl⟩
  intro _
  apply Leads.bind (K := fun moved r => ∃ r₀, Run.Open g c bad missed r₀ ∧
    moved = (Engine.forward r₀.engine).1 ∧ r = r₀.stepped)
  · apply Leads.update
    rintro _ ⟨r, h, rfl⟩
    rw [Run.stepForward_eq]
    exact ⟨r, h, rfl, rfl⟩
  intro moved
  apply Leads.bind (K := fun _ r =>
    if moved then r.Entered g c bad missed else r.Halted g c bad missed)
  · apply Leads.update
    rintro _ ⟨r, h, rfl, rfl⟩
    obtain ⟨top, rest, frames⟩ := h.policed.wellFormed.exists_frames
    cases h.policed.wellFormed.forward_cases frames with
    | inl enters =>
      obtain ⟨edge, enters⟩ := enters
      simpa [enters.forward] using h.entered enters
    | inr refused => simpa [refused.2] using h.halted frames refused.2
  exact fun _ => .pure fun _ => id

include restrained in
theorem leads_announceViolation : Leads (L := L) allowed
    (fun r => r.Struck g c bad missed [r.violations.length]) announceViolation
    fun _ => Run.Struck g c bad missed [] := by
  have told : Leads (L := L) allowed (fun r => r.Struck g c bad missed [r.violations.length])
      (announce .propertyViolated) fun _ => Run.Struck g c bad missed [] :=
    leads_announce restrained fun r n _ h attended => (h.announced n).alike (.of_attended attended)
  apply told.bind
  intro _
  apply Leads.bind (Leads.look.imp fun _ _ h => h.1)
  intro goesOn
  split
  · exact .change fun r h => h.reset
  · exact .pure fun _ => id

omit [Listener GraphEngine Subject L] in
/-- A violation ends the search, or is left by stepping back. -/
theorem leads_endsAtViolation : Leads (L := L) allowed (Run.Struck g c bad missed [])
    (update Run.endsAtViolation) fun ends r =>
      if ends then r.Settled g c bad missed .propertyViolated
      else r.Passing g c bad missed ∧ r.backtrackRequested = true := by
  apply Leads.update
  intro r h
  cases done : r.done with
  | true =>
    simp only [Run.endsAtViolation, h.violated, done, if_true]
    refine ⟨h.inside.policed, h.inside.lone.few, ?_⟩
    intro single _
    rw [if_pos (h.single single).2]
  | false =>
    have multiple : c.continueOnViolation = false → r.violations = [] := by
      intro single
      rw [(h.single single).1] at done
      cases done
    simp only [Run.endsAtViolation, h.violated, done, if_true, Bool.false_eq_true, if_false]
    have requested : r.Alike r.requestBacktrack := { requested := fun _ => rfl }
    exact ⟨⟨h.inside.alike requested, multiple⟩, rfl⟩

omit [Listener GraphEngine Subject L] in
theorem leads_backtrack : Leads (L := L) allowed (Run.Passing g c bad missed) backtrack fun moved r =>
    if moved then r.Open g c bad missed else r.Settled g c bad missed .exhausted := by
  apply Leads.bind (K := fun _ r => ∃ r₀, Run.Passing g c bad missed r₀ ∧ r = r₀.forgetQuery)
  · exact .change fun r h => ⟨r, h, rfl⟩
  intro _
  apply Leads.update
  rintro _ ⟨r, h, rfl⟩
  exact h.stepBack

end Search

namespace Run

variable {r r' : Run GraphEngine Subject}

/-- The accounts of a run that stops for a reason are settled. -/
def Final (g : StateGraph) (c : Config) (bad : StateId → Bool) (reason : StopReason)
    (r : Run GraphEngine Subject) : Prop :=
  ∃ missed, Settled g c bad missed reason r

theorem lasting_final (reason : StopReason) : Lasting (Final g c bad reason) := by
  rintro r r' ⟨missed, settled⟩ same
  exact ⟨missed, settled.alike same⟩

/-- The search is about to be started. -/
structure Outset (g : StateGraph) (c : Config) (bad : StateId → Bool) (r : Run GraphEngine Subject) :
    Prop where
  fresh : Fresh g r.engine
  config : r.config = c
  vets : Vets g bad r.properties
  violations : r.violations = []
  announced : r.journal.announcedViolations = []

theorem Outset.isOpen (h : Outset g c bad r) (matching : r.matching = true) : Open g c bad [] r := by
  obtain ⟨choices, frames⟩ := h.fresh.frames
  have accounted : r.Accounted [] [] := by
    constructor
    · simp [h.violations]
    · simp [h.violations, h.announced]
  refine ⟨⟨h.fresh.wellFormed, h.config, matching, h.vets, accounted, by simp⟩, ?_, ?_, ?_⟩
  · simp [Guarded, frames]
  · exact fun _ => h.violations
  · exact fun _ => .inl rfl

end Run

namespace Search

omit [Listener GraphEngine Subject L]

theorem leads_launch (strategy : String) :
    Leads (L := L) allowed (Run.Outset g c bad) (launch strategy) fun _ => Run.Open g c bad [] := by
  have record (e : Entry) (silent : e.bulletin? = none) (r : Run GraphEngine Subject)
      (h : r.Outset g c bad) : (r.record e).Outset g c bad :=
    ⟨h.fresh, h.config, h.vets, h.violations, by
      simpa [Run.record, Journal.announcedViolations, silent] using h.announced⟩
  have started : Leads (L := L) allowed (Run.Outset g c bad)
      (do change (Run.record (.launched strategy))
          change fun r => { r with matching := true }) fun _ => Run.Open g c bad [] := by
    apply Leads.bind (.change (record _ rfl))
    intro _
    apply Leads.change
    intro r h
    have outset : ({ r with matching := true } : Run GraphEngine Subject).Outset g c bad :=
      ⟨h.fresh, h.config, h.vets, h.violations, h.announced⟩
    exact outset.isOpen rfl
  apply Leads.bind (Leads.look.imp fun _ _ h => h.1)
  intro unguarded
  split
  · exact Leads.bind (.change (record _ rfl)) fun _ => started
  · exact started

theorem leads_conclude (reason : StopReason) :
    Leads (L := L) allowed (Run.Final g c bad reason) (conclude reason) fun o r =>
      r.Final g c bad o.reason ∧ o.errors = r.violations.length := by
  have done : Leads (L := L) allowed (Run.Final g c bad reason)
      (change fun r => { r with done := true }) fun _ => Run.Final g c bad reason :=
    .change fun r h => Run.lasting_final reason r _ h { done := fun _ => rfl }
  apply done.bind
  intro _
  apply Leads.look.imp
  rintro o r ⟨final, rfl⟩
  exact ⟨final, rfl⟩

end Search

/-! ## Depth-first search -/

namespace Run

variable {r r' : Run GraphEngine Subject}

/-- The accounts at the beginning of an iteration: the state is to be left, or it is not bad, or the
    root is spent, where a violation was missed. -/
inductive Going (g : StateGraph) (c : Config) (bad : StateId → Bool) (r : Run GraphEngine Subject) :
    Prop where
  | passing {missed : List Nat} : (c.matchByMinDepth = false → missed = []) →
      Passing g c bad missed r → (Guarded bad r.engine.frames ∨ r.backtrackRequested = true) →
      Going g c bad r
  | spent {missed : List Nat} : (c.matchByMinDepth = false → missed.length = 1) →
      c.continueOnViolation = true → Policed g c bad missed [] r → Spent r → Going g c bad r

/-- The accounts when the current state is to be left. -/
inductive Leaving (g : StateGraph) (c : Config) (bad : StateId → Bool) (r : Run GraphEngine Subject) :
    Prop where
  | passing {missed : List Nat} : (c.matchByMinDepth = false → missed = []) →
      Passing g c bad missed r → Leaving g c bad r
  | spent {missed : List Nat} : (c.matchByMinDepth = false → missed.length = 1) →
      c.continueOnViolation = true → Policed g c bad missed [] r → r.engine.frames.length = 1 →
      Leaving g c bad r

/-- The accounts when the engine is to go on. -/
def Ready (g : StateGraph) (c : Config) (bad : StateId → Bool) (r : Run GraphEngine Subject) : Prop :=
  ∃ missed, (c.matchByMinDepth = false → missed = []) ∧ Open g c bad missed r

/-- The accounts between two iterations. -/
def Between (g : StateGraph) (c : Config) (bad : StateId → Bool) (r : Run GraphEngine Subject) : Prop :=
  Going g c bad r ∨ r.done = true ∧ Final g c bad .terminated r

theorem lasting_going : Lasting (Going g c bad) := by
  intro r r' h same
  cases h with
  | passing none passing next =>
    refine .passing none (passing.alike same) ?_
    cases next with
    | inl guarded => exact .inl (same.frames ▸ guarded)
    | inr requested => exact .inr (same.requested requested)
  | spent few multiple policed spent =>
    exact .spent few multiple (policed.alike same) (spent.alike same)

theorem lasting_ready : Lasting (Ready g c bad) := by
  rintro r r' ⟨missed, none, free⟩ same
  exact ⟨missed, none, free.alike same⟩

theorem Going.final (h : Going g c bad r) (reason : StopReason) : Final g c bad reason r := by
  cases h with
  | passing none passing _ =>
    refine ⟨_, passing.inside.policed, fun plain => by simp [none plain], ?_⟩
    intro single some
    exact absurd (passing.clear single) some
  | spent few multiple policed spent =>
    refine ⟨_, policed, fun plain => (few plain).le, ?_⟩
    intro single
    rw [multiple] at single
    cases single

theorem Ready.going (h : Ready g c bad r) : Going g c bad r := by
  obtain ⟨missed, none, free⟩ := h
  obtain ⟨top, rest, frames⟩ := free.policed.wellFormed.exists_frames
  have guarded := free.guarded
  rw [frames] at guarded
  refine .passing none ⟨⟨free.policed, ?_, fun plain => .inl (none plain)⟩, free.clear⟩ (.inl free.guarded)
  rw [frames]
  exact guarded.tail

theorem Halted.between (h : Halted g c bad missed r) (none : c.matchByMinDepth = false → missed = []) :
    Between g c bad r := by
  cases h with
  | good free => exact .inl (Ready.going ⟨missed, none, free⟩)
  | @broken id policed spent _ single =>
    have few (plain : c.matchByMinDepth = false) : (missed ++ [id]).length = 1 := by simp [none plain]
    cases multiple : c.continueOnViolation with
    | true => exact .inl (.spent few multiple policed spent)
    | false =>
      refine .inr ⟨single multiple, _, policed, fun plain => (few plain).le, ?_⟩
      simp

/-- Somebody asked for the state to be left, or it was found to be known. -/
theorem Going.leave (h : Going g c bad r) : Leaving g c bad { r with backtrackRequested := false } := by
  cases h with
  | passing none passing _ =>
    have inside := passing.inside
    exact .passing none ⟨⟨inside.policed.congr inside.policed.wellFormed rfl rfl rfl rfl rfl,
      inside.guarded, inside.lone⟩, passing.clear⟩
  | spent few multiple policed spent =>
    exact .spent few multiple (policed.congr policed.wellFormed rfl rfl rfl rfl rfl) spent.lowest

/-- A state that is stayed in is not bad, and not a root that was spent before. -/
theorem Going.stay (h : Going g c bad r) (asked : isNew r = .ok true r')
    (unrequested : r'.backtrackRequested = false) :
    Ready g c bad { r' with backtrackRequested := false } := by
  have same : Alike r r' := .of_attended (.isNew asked)
  have kept : { r' with backtrackRequested := false } = r' := by rw [← unrequested]
  rw [kept]
  cases h with
  | passing none passing next =>
    have passing := passing.alike same
    cases next with
    | inl guarded =>
      exact ⟨_, none, passing.inside.policed, same.frames ▸ guarded, passing.clear, fun plain =>
        .inl (none plain)⟩
    | inr requested =>
      rw [same.requested requested] at unrequested
      cases unrequested
  | @spent missed few multiple policed spent =>
    -- The root is known, unless states are matched by depth.
    have deep : c.matchByMinDepth = true := by
      by_contra shallow
      have plain : r.config.matchByMinDepth = false := by simpa [policed.config] using shallow
      have known := isNew_apply policed.matching (spent.recalls plain) (judge_of_plain plain)
      have answer : Engine.isNew r.engine = true := (EStateM.Result.ok.inj (known.symm.trans asked)).1
      rw [show Engine.isNew r.engine = false from spent.known] at answer
      cases answer
    obtain ⟨top, rest, frames⟩ := policed.wellFormed.exists_frames
    have lowest := spent.lowest
    rw [frames] at lowest
    obtain rfl : rest = [] := by simpa using lowest
    refine ⟨missed, by simp [deep], policed.alike same, ?_, by simp [multiple], by simp [Lone, deep]⟩
    simp [same.frames, frames, Guarded]

theorem Leaving.stepBack (h : Leaving g c bad r) :
    if r.forgetQuery.stepBack.1 then Ready g c bad r.forgetQuery.stepBack.2
    else Final g c bad .exhausted r.forgetQuery.stepBack.2 := by
  cases h with
  | passing none passing =>
    have stepped := passing.stepBack
    split
    · rename_i moved
      rw [if_pos moved] at stepped
      exact ⟨_, none, stepped⟩
    · rename_i refused
      rw [if_neg refused] at stepped
      exact ⟨_, stepped⟩
  | spent few multiple policed lowest =>
    obtain ⟨top, rest, frames⟩ := policed.wellFormed.exists_frames
    rw [frames] at lowest
    obtain rfl : rest = [] := by simpa using lowest
    have engine := Run.engine_stepBack_of_root frames
    rw [Run.stepBack_of_root frames]
    refine ⟨_, policed.congr (engine ▸ policed.wellFormed) rfl rfl rfl rfl ?_,
      fun plain => (few plain).le, by simp [multiple]⟩
    simp [Run.stepBack, forgetQuery, record, Entry.bulletin?]

end Run

namespace DepthFirst

include restrained

omit restrained [Listener GraphEngine Subject L] in
theorem leads_mustLeave (limitReached : Bool) :
    Leads (L := L) allowed (Run.Going g c bad) (mustLeave limitReached) fun leaves r =>
      if leaves then r.Leaving g c bad else r.Ready g c bad := by
  apply Leads.bind (K := fun answer r' => ∃ r, Run.Going g c bad r ∧ Run.isNew r = .ok answer r')
  · apply Leads.onRun
    intro r h
    cases asked : Run.isNew r with
    | ok answer r' => exact ⟨r, h, asked⟩
    | error f r' => trivial
  intro answer
  apply Leads.bind (K := fun requested r'' => ∃ r r', Run.Going g c bad r ∧
    Run.isNew r = .ok answer r' ∧ requested = r'.backtrackRequested ∧
    r'' = { r' with backtrackRequested := false })
  · apply Leads.update
    rintro r' ⟨r, h, asked⟩
    exact ⟨r, r', h, asked, rfl, rfl⟩
  intro requested
  apply Leads.bind (Leads.look.imp fun _ _ h => h.1)
  intro engine
  apply Leads.pure
  rintro _ ⟨r, r', going, asked, rfl, rfl⟩
  split
  · exact (Run.lasting_going r r' going (.of_attended (.isNew asked))).leave
  · rename_i stays
    simp only [Bool.or_eq_true, not_or, Bool.not_eq_true, Bool.not_eq_false'] at stays
    obtain ⟨⟨⟨⟨unrequested, rfl⟩, -⟩, -⟩, -⟩ := stays
    exact going.stay asked unrequested

theorem leads_settleViolation : Leads (L := L) allowed (Run.Entered g c bad missed) settleViolation
    fun ends r => if ends then r.Settled g c bad missed .propertyViolated
      else r.Passing g c bad missed ∧ (Guarded bad r.engine.frames ∨ r.backtrackRequested = true) := by
  apply Leads.bind Leads.look
  intro violated
  cases violated with
  | true =>
    have struck : Leads (L := L) allowed (fun r => r.Entered g c bad missed ∧ r.atViolation = true)
        announceViolation fun _ => Run.Struck g c bad missed [] := by
      apply (leads_announceViolation restrained).of_imp
      rintro r ⟨entered, violated⟩
      cases entered with
      | broken struck => exact struck
      | good calm =>
        rw [calm.unviolated] at violated
        cases violated
    apply struck.bind
    intro _
    apply leads_endsAtViolation.imp
    intro ends r
    split
    · exact id
    · exact fun h => ⟨h.1, .inr h.2⟩
  | false =>
    apply Leads.pure
    rintro r ⟨entered, unviolated⟩
    cases entered with
    | good calm => exact ⟨calm.passing, .inl calm.guarded⟩
    | broken struck =>
      rw [struck.violated] at unviolated
      cases unviolated

theorem leads_checkLimits (limitReached : Bool) :
    Leads (L := L) allowed (Run.Going g c bad) (checkLimits limitReached)
      (Ensures.onTurn (fun _ => Run.Between g c bad) (Run.Final g c bad)) := by
  apply Leads.bind (Leads.look.imp fun _ _ h => h.1)
  intro limit
  apply Leads.bind (Leads.look.imp fun _ _ h => h.1)
  intro depth
  split
  · apply Leads.bind (leads_announceConstraint restrained Run.lasting_going _)
    exact fun _ => .pure fun _ => .inl
  · apply Leads.bind (leads_hasMemory Run.lasting_going)
    intro enough
    split
    · exact .pure fun _ => .inl
    · apply Leads.bind (leads_announceMemoryLimit restrained Run.lasting_going)
      exact fun _ => .pure fun _ h => h.final _

theorem leads_advance (limitReached : Bool) :
    Leads (L := L) allowed (Run.Ready g c bad) (advance limitReached)
      (Ensures.onTurn (fun _ => Run.Between g c bad) (Run.Final g c bad)) := by
  apply Leads.of_exists
  intro missed s hs
  obtain ⟨none, free⟩ := hs.run
  refine Leads.bind leads_forward (fun moved => ?_) s ⟨hs.listeners, hs.reporter, free⟩
  cases moved with
  | true =>
    have entered : Run.Lasting (Run.Entered g c bad missed) := fun _ _ h same => h.alike same
    apply Leads.bind (leads_descend entered)
    intro _
    apply Leads.bind (leads_other restrained entered (by simp))
    intro _
    apply Leads.bind (leads_settleViolation restrained)
    intro ends
    cases ends with
    | true => exact .pure fun _ settled => ⟨missed, settled⟩
    | false =>
      apply (leads_checkLimits restrained limitReached).of_imp
      exact fun r h => .passing none h.1 h.2
  | false =>
    have halted : Run.Lasting (Run.Halted g c bad missed) := fun _ _ h same => h.alike same
    apply Leads.bind (leads_other restrained halted (by simp))
    exact fun _ => .pure fun _ h => h.between none

theorem leads_iterate (limitReached : Bool) :
    Leads (L := L) allowed (Run.Going g c bad) (iterate limitReached)
      (Ensures.onTurn (fun _ => Run.Between g c bad) (Run.Final g c bad)) := by
  apply Leads.bind (leads_pollProbe restrained Run.lasting_going)
  intro _
  apply Leads.bind (leads_mustLeave limitReached)
  intro leaves
  cases leaves with
  | true =>
    have stepped : Leads (L := L) allowed (Run.Leaving g c bad) backtrack fun moved r =>
        if moved then r.Ready g c bad else r.Final g c bad .exhausted := by
      apply Leads.bind (K := fun _ r => ∃ r₀, Run.Leaving g c bad r₀ ∧ r = r₀.forgetQuery)
      · exact .change fun r h => ⟨r, h, rfl⟩
      intro _
      apply Leads.update
      rintro _ ⟨r, h, rfl⟩
      exact h.stepBack
    apply stepped.bind
    intro moved
    cases moved with
    | true =>
      apply Leads.bind (leads_ascend Run.lasting_ready)
      intro _
      apply Leads.bind (leads_other restrained Run.lasting_ready (by simp))
      exact fun _ => leads_advance restrained false
    | false => exact .pure fun _ => id
  | false => exact leads_advance restrained limitReached

/-- If it ends, a depth-first search has its accounts settled. -/
theorem leads_run (budget : Nat) :
    Leads (L := L) allowed (Run.Outset g c bad) (DepthFirst.run budget) fun o r =>
      r.Final g c bad o.reason ∧ o.errors = r.violations.length := by
  apply Leads.bind (leads_launch "dfs")
  intro _
  have opened : Run.Lasting (Run.Open g c bad []) := fun _ _ h same => h.alike same
  have explored : Leads (L := L) allowed (Run.Open g c bad []) (explore budget) (Run.Final g c bad) := by
    apply Leads.bind (K := fun _ => Run.Open g c bad []) (.change fun r h => opened r _ h {})
    intro _
    apply Leads.bind (leads_other restrained opened (by simp))
    intro _
    have looped : Leads (L := L) allowed (Run.Between g c bad)
        (loop (·.run.done) .terminated iterate budget false) (Run.Final g c bad) := by
      refine Leads.loop (fun _ => Run.Between g c bad) ?_ (fun limitReached => ?_) budget false
      · intro _ r h _
        cases h with
        | inl going => exact going.final _
        | inr ended => exact ended.2
      · apply (leads_iterate restrained limitReached).of_imp
        rintro r ⟨between, going⟩
        cases between with
        | inl going => exact going
        | inr ended =>
          rw [ended.1] at going
          cases going
    apply Leads.bind (looped.of_imp fun r h => .inl (Run.Ready.going ⟨[], fun _ => rfl, h⟩))
    intro reason
    apply Leads.bind (leads_other restrained (Run.lasting_final reason) (by simp))
    exact fun _ => .pure fun _ => id
  exact explored.bind leads_conclude

end DepthFirst

end Statewalk
