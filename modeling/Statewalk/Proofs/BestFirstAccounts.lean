import Statewalk.Proofs.DepthFirstAccounts
import Statewalk.Proofs.Expeditions

/-! # The accounts of best-first search

The accounts of violations along a best-first search over a graph.  The initial state is expanded
once and never queued, so a violation is missed there at most once.
-/

namespace Statewalk

open GraphEngine Search

variable {H L : Type} [Listener GraphEngine Subject L] {allowed : L → Prop}
  {g : StateGraph} {c : Config} {bad : StateId → Bool} {missed : List Nat}
  {J : Run GraphEngine Subject → Prop}
  (restrained : Listener.Restrained (P := Subject) (fun _ : Run GraphEngine Subject => True) allowed)

/-- A snapshot above the root, with no bad state but the initial one. -/
def GraphEngine.Sheltered (g : StateGraph) (bad : StateId → Bool) (s : Snapshot Saved) : Prop :=
  ∃ e, WellFormed g e ∧ Guarded bad e.frames ∧ 2 ≤ e.frames.length ∧ s = e.snapshot

namespace Run

variable {r r' : Run GraphEngine Subject}

/-- The accounts after a state was expanded. -/
structure Rested (g : StateGraph) (c : Config) (bad : StateId → Bool) (r : Run GraphEngine Subject) :
    Prop where
  accounts : ∃ missed, Policed g c bad missed [] r ∧ (c.matchByMinDepth = false → missed.length ≤ 1) ∧
    (c.continueOnViolation = false → r.violations ≠ [] → r.done = true ∧ missed ≠ [])

/-- The accounts after all successors of a state were generated, or a reason to stop was found. -/
def Expanded (g : StateGraph) (c : Config) (bad : StateId → Bool) :
    Option StopReason → Run GraphEngine Subject → Prop
  | some reason => Final g c bad reason
  | none => Rested g c bad

theorem Open.rested (h : Open g c bad missed r) : Rested g c bad r := by
  refine ⟨missed, h.policed, h.lone.few, ?_⟩
  intro single some
  exact absurd (h.clear single) some

theorem Halted.rested (h : Halted g c bad missed r) : Rested g c bad r := by
  cases h with
  | good free => exact free.rested
  | broken policed spent none single =>
    refine ⟨_, policed, fun plain => by simp [none plain], ?_⟩
    exact fun ends _ => ⟨single ends, by simp⟩

theorem Rested.terminated (h : Rested g c bad r) : Final g c bad .terminated r := by
  obtain ⟨missed, policed, few, single⟩ := h.accounts
  refine ⟨missed, policed, few, ?_⟩
  intro ends some
  rw [if_neg (single ends some).2]

theorem Rested.clear (h : Rested g c bad r) (going : r.done = false) :
    ∃ missed, Policed g c bad missed [] r ∧ (c.matchByMinDepth = false → missed.length ≤ 1) ∧
      (c.continueOnViolation = false → r.violations = []) := by
  obtain ⟨missed, policed, few, single⟩ := h.accounts
  refine ⟨missed, policed, few, ?_⟩
  intro ends
  by_contra some
  rw [(single ends some).1] at going
  cases going

theorem Rested.exhausted (h : Rested g c bad r) (going : r.done = false) :
    Final g c bad .exhausted r := by
  obtain ⟨missed, policed, few, clear⟩ := h.clear going
  exact ⟨missed, policed, few, fun ends some => absurd (clear ends) some⟩

theorem Calm.sheltered (h : Calm g c bad missed r) {s : Snapshot Saved}
    (saved : Engine.snapshot? r.engine = some s) : Sheltered g bad s := by
  cases saved
  exact ⟨r.engine, h.passing.inside.policed.wellFormed, h.guarded, h.above, rfl⟩

end Run

namespace BestFirst

include restrained

variable [Heuristic H GraphEngine Subject]

theorem leads_storeWithinLimit :
    Leads (Sheltered g bad) allowed (Run.Calm g c bad missed)
      (storeWithinLimit : ExpeditionM H GraphEngine Subject L Unit) fun _ => Run.Calm g c bad missed := by
  have calm : Run.Lasting (Run.Calm g c bad missed) := fun _ _ h same => h.alike same
  have stored : Leads (Sheltered g bad) allowed (Run.Calm g c bad missed)
      (store : ExpeditionM H GraphEngine Subject L Unit) fun _ => Run.Calm g c bad missed :=
    leads_store (fun _ h _ saved => h.sheltered saved) (leads_other restrained calm (by simp))
  apply Ensures.get
  intro x hx
  refine Ensures.of_eq ?_ hx
  split
  · exact Leads.bind (.onSearch (leads_announceConstraint restrained calm _)) fun _ => stored
  · exact stored

theorem leads_consider :
    Leads (Sheltered g bad) allowed (Run.Calm g c bad missed)
      (consider : ExpeditionM H GraphEngine Subject L Unit) fun _ => Run.Calm g c bad missed := by
  have calm : Run.Lasting (Run.Calm g c bad missed) := fun _ _ h same => h.alike same
  apply Leads.bind (.onSearch (leads_isNew calm))
  intro isNew
  apply Leads.bind (Leads.look.imp fun _ _ h => h.imp fun _ h => h.1)
  intro limit
  apply Leads.bind (Leads.look.imp fun _ _ h => h.imp fun _ h => h.1)
  intro depth
  split
  · exact .onSearch (leads_announceConstraint restrained calm _)
  · apply Leads.bind (Leads.look.imp fun _ _ h => h.imp fun _ h => h.1)
    intro sensitive
    split
    · exact leads_storeWithinLimit restrained
    · exact .pure fun _ => id

theorem leads_receive :
    Leads (Sheltered g bad) allowed (Run.Entered g c bad missed)
      (receive : ExpeditionM H GraphEngine Subject L Bool) fun ends r =>
        if ends then r.Settled g c bad missed .propertyViolated else r.Passing g c bad missed := by
  apply Leads.bind Leads.look
  intro violated
  cases violated with
  | true =>
    have struck : Run.Lasting fun r => r.Struck g c bad missed [r.violations.length] := by
      intro r r' h same
      rw [same.violations]
      exact h.alike same
    apply Leads.bind (K := fun _ r => r.Struck g c bad missed [r.violations.length])
    · apply (Leads.onSearch (leads_isNew struck)).of_imp
      rintro r ⟨entered, violated⟩
      cases entered with
      | broken struck => exact struck
      | good calm =>
        rw [calm.unviolated] at violated
        cases violated
    intro _
    apply Leads.bind (.onSearch (leads_announceViolation restrained))
    intro _
    apply Leads.bind (.onSearch leads_endsAtViolation)
    intro ends
    cases ends with
    | true => exact .pure fun _ => id
    | false =>
      -- The request to step back is taken away: the search does so in any case.
      apply Leads.bind (K := fun _ => Run.Passing g c bad missed)
      · apply Leads.onSearch
        apply Leads.update
        rintro r ⟨passing, -⟩
        have inside := passing.inside
        exact ⟨⟨inside.policed.congr inside.policed.wellFormed rfl rfl rfl rfl rfl, inside.guarded,
          inside.lone⟩, passing.clear⟩
      · exact fun _ => .pure fun _ => id
  | false =>
    apply Leads.of_imp (J := Run.Calm g c bad missed)
    · apply Leads.bind (Leads.look.imp fun _ _ h => h.imp fun _ h => h.1)
      intro engine
      split
      · exact .pure fun _ calm => calm.passing
      · apply Leads.bind (leads_consider restrained)
        exact fun _ => .pure fun _ calm => calm.passing
    · rintro r ⟨entered, unviolated⟩
      cases entered with
      | good calm => exact calm
      | broken struck =>
        rw [struck.violated] at unviolated
        cases unviolated

omit [Heuristic H GraphEngine Subject] in
theorem leads_leave :
    Leads (Sheltered g bad) allowed (Run.Passing g c bad missed)
      (leave : ExpeditionM H GraphEngine Subject L (Turn Unit (Option StopReason)))
      (Ensures.onTurn (fun _ => Run.Open g c bad missed) (Run.Expanded g c bad)) := by
  have passing : Run.Lasting (Run.Passing g c bad missed) := fun _ _ h same => h.alike same
  have opened : Run.Lasting (Run.Open g c bad missed) := fun _ _ h same => h.alike same
  apply Leads.bind (.onSearch (leads_hasMemory passing))
  intro enough
  split
  · apply Leads.bind (.onSearch leads_backtrack)
    intro moved
    cases moved with
    | true =>
      apply Leads.bind (.onSearch (leads_ascend opened))
      intro _
      apply Leads.bind (.onSearch (leads_other restrained opened (by simp)))
      exact fun _ => .pure fun _ => id
    | false => exact .pure fun _ settled => ⟨missed, settled⟩
  · apply Leads.bind (.onSearch (leads_announceMemoryLimit restrained passing))
    intro _
    apply Leads.pure
    intro r h
    exact ⟨missed, h.inside.policed, h.inside.lone.few, fun single some => absurd (h.clear single) some⟩

theorem leads_generate :
    Leads (Sheltered g bad) allowed (Run.Open g c bad missed)
      (generate () : ExpeditionM H GraphEngine Subject L (Turn Unit (Option StopReason)))
      (Ensures.onTurn (fun _ => Run.Open g c bad missed) (Run.Expanded g c bad)) := by
  have opened : Run.Lasting (Run.Open g c bad missed) := fun _ _ h same => h.alike same
  apply Leads.bind (.onSearch (leads_pollProbe restrained opened))
  intro _
  apply Leads.bind (.onSearch leads_forward)
  intro moved
  cases moved with
  | true =>
    have entered : Run.Lasting (Run.Entered g c bad missed) := fun _ _ h same => h.alike same
    apply Leads.bind (.onSearch (leads_descend entered))
    intro _
    apply Leads.bind (.onSearch (leads_other restrained entered (by simp)))
    intro _
    apply Leads.bind (leads_receive restrained)
    intro ends
    cases ends with
    | true => exact .pure fun _ settled => ⟨missed, settled⟩
    | false => exact leads_leave restrained
  | false =>
    have halted : Run.Lasting (Run.Halted g c bad missed) := fun _ _ h same => h.alike same
    apply Leads.bind (.onSearch (leads_other restrained halted (by simp)))
    exact fun _ => .pure fun _ h => h.rested

theorem leads_expand (budget : Nat) :
    Leads (Sheltered g bad) allowed (Run.Open g c bad missed)
      (expand budget : ExpeditionM H GraphEngine Subject L (Option StopReason)) (Run.Expanded g c bad) := by
  refine Leads.loop (fun _ => Run.Open g c bad missed) ?_ (fun _ => ?_) budget ()
  · exact fun _ r h _ => h.rested
  · exact (leads_generate restrained).of_imp fun _ h => h.1

omit restrained [Listener GraphEngine Subject L] [Heuristic H GraphEngine Subject] in
theorem leads_restore {snapshot : Snapshot Saved} (sheltered : Sheltered g bad snapshot)
    (strategy : String) :
    Search.Leads (L := L) allowed (fun r => r.Rested g c bad ∧ r.done = false)
      (restore (E := GraphEngine) snapshot strategy) fun _ r => ∃ missed, r.Open g c bad missed := by
  obtain ⟨e, wellFormed, guarded, above, rfl⟩ := sheltered
  apply Search.Leads.bind (K := fun _ r => ∃ r₀ : Run GraphEngine Subject,
    (r₀.Rested g c bad ∧ r₀.done = false) ∧ r = { r₀ with lastQuery := none, atViolation := false })
  · exact .change fun r h => ⟨r, h, rfl⟩
  intro _
  apply Search.Leads.bind (K := fun _ r => ∃ missed, r.Open g c bad missed)
  · apply Search.Leads.update
    rintro _ ⟨r, ⟨rested, going⟩, rfl⟩
    obtain ⟨missed, policed, few, clear⟩ := rested.clear going
    have graph := policed.wellFormed.graph
    have restored : WellFormed g (Engine.restore e.snapshot r.engine).2 := by
      refine ⟨graph, wellFormed.stacked, wellFormed.application, ?_⟩
      rw [← graph]
      rfl
    refine ⟨missed, policed.congr restored rfl rfl rfl rfl ?_, guarded, clear, ?_⟩
    · simp [Run.stepTo, Run.record, Entry.bulletin?]
    · intro plain
      rcases Nat.le_one_iff_eq_zero_or_eq_one.1 (few plain) with none | one
      · exact .inl (List.length_eq_zero_iff.1 none)
      · exact .inr ⟨one, above⟩
  intro accepted
  split
  · apply Search.Leads.change
    rintro r ⟨missed, opened⟩
    exact ⟨missed, opened.alike {}⟩
  · exact Ensures.throw fun _ _ => trivial

theorem leads_expandBest (budget : Nat) :
    Leads (Sheltered g bad) allowed (fun r => r.Rested g c bad ∧ r.done = false)
      (expandBest budget () : ExpeditionM H GraphEngine Subject L (Turn Unit StopReason))
      (Ensures.onTurn (fun _ => Run.Rested g c bad) (Run.Final g c bad)) := by
  apply Ensures.get
  intro x hx
  cases popped : x.strategy.frontier.pop? with
  | none =>
    apply Ensures.pure
    rintro _ rfl
    exact hx.imp fun r h => h.1.exhausted h.2
  | some best =>
    obtain ⟨⟨key, member⟩, rest, -⟩ := Frontier.mem_of_pop? popped
    have provided : Provided (Sheltered g bad) allowed (fun r => r.Rested g c bad ∧ r.done = false)
        { x with strategy := { x.strategy with frontier := best.2 } } :=
      ⟨hx.search, fun e member => hx.queued e (rest member)⟩
    apply Ensures.set
    refine Ensures.of_eq ?_ provided
    apply Leads.bind (K := fun _ r => r.Rested g c bad ∧ r.done = false)
    · apply Leads.onSearch
      apply Search.Leads.change
      rintro r ⟨⟨missed, policed, few, single⟩, going⟩
      refine ⟨⟨missed, policed.congr policed.wellFormed rfl rfl rfl rfl ?_, few, single⟩, going⟩
      simp [Run.record, Entry.bulletin?]
    intro _
    apply Leads.bind (.onSearch (leads_restore (hx.queued _ member) name))
    intro _
    apply Leads.of_exists
    intro missed
    have opened : Run.Lasting (Run.Open g c bad missed) := fun _ _ h same => h.alike same
    apply Leads.bind (.onSearch (leads_other restrained opened (by simp)))
    intro _
    apply Leads.bind (leads_expand restrained budget)
    intro reason
    cases reason with
    | some reason => exact .pure fun _ => id
    | none => exact .pure fun _ => id

/-- The initial state is queued alone. -/
theorem ensures_storeStart :
    Ensures (fun x => x.search.Heeded allowed (Run.Open g c bad []) ∧ x.strategy.frontier.size = 0)
      (store : ExpeditionM H GraphEngine Subject L Unit)
      (fun _ x => x.search.Heeded allowed (Run.Open g c bad []) ∧ x.strategy.frontier.size ≤ 1)
      fun _ _ => True := by
  have opened : Run.Lasting (Run.Open g c bad []) := fun _ _ h same => h.alike same
  have offered : Ensures
      (fun x => x.search.Heeded allowed (Run.Open g c bad []) ∧ x.strategy.frontier.size = 0)
      (offerCurrent : ExpeditionM H GraphEngine Subject L Bool)
      (fun _ x => x.search.Heeded allowed (Run.Open g c bad []) ∧ x.strategy.frontier.size ≤ 1)
      fun _ _ => True := by
    rintro x ⟨heeded, empty⟩
    obtain ⟨stored, strategy, snapshot, offered, -, size, -⟩ | unsupported | ⟨fault, -, failed⟩ :=
      offerCurrent_cases x
    · rw [empty] at size
      rw [offered]
      exact ⟨heeded, size⟩
    · rw [unsupported]
      trivial
    · rw [failed]
      trivial
  apply offered.bind
  intro stored
  split
  · exact ensures_onSearch (leads_other restrained opened (by simp)) fun b => b.frontier.size ≤ 1
  · exact .pure fun _ => id

theorem ensures_explored (budget : Nat) :
    Ensures (fun x => x.search.Heeded allowed (Run.Open g c bad []))
      (explore budget : ExpeditionM H GraphEngine Subject L StopReason)
      (fun reason => Provided (Sheltered g bad) allowed (Run.Final g c bad reason)) fun _ _ => True := by
  have opened : Run.Lasting (Run.Open g c bad []) := fun _ _ h same => h.alike same
  have cleared : Ensures (fun x => x.search.Heeded allowed (Run.Open g c bad []))
      (modify fun x : Expedition H GraphEngine Subject L => { x with strategy := x.strategy.clear })
      (fun _ x => x.search.Heeded allowed (Run.Open g c bad []) ∧ x.strategy.frontier.size = 0)
      fun _ _ => True :=
    .modifying fun x h => ⟨h, rfl⟩
  apply cleared.bind
  intro _
  apply Ensures.bind
  · exact ensures_onSearch (Search.Leads.change fun r h => opened r _ h {}) fun b => b.frontier.size = 0
  intro _
  apply Ensures.bind
  · exact ensures_onSearch (leads_other restrained opened (by simp)) fun b => b.frontier.size = 0
  intro _
  apply Ensures.bind (ensures_storeStart restrained)
  intro _
  refine Ensures.bind
    (?_ : Ensures _ _ (fun _ => Provided (Sheltered g bad) allowed (Run.Open g c bad [])) _) fun _ => ?_
  · apply Ensures.modifying
    rintro x ⟨heeded, single⟩
    split
    · rename_i popped
      exact ⟨heeded, by simp [Frontier.entries_of_pop?_eq_some single popped]⟩
    · rename_i popped
      exact ⟨heeded, by simp [Frontier.entries_of_pop?_eq_none popped]⟩
  have finished (reason : StopReason) : Leads (H := H) (Sheltered g bad) allowed
      (Run.Final g c bad reason) (do
        onSearch (announce (L := L) .searchFinished)
        return reason) (Run.Final g c bad) := by
    apply Leads.bind (.onSearch (leads_other restrained (Run.lasting_final reason) (by simp)))
    exact fun _ => .pure fun _ => id
  apply Ensures.bind (leads_expand restrained budget)
  intro reason
  cases reason with
  | some reason => exact finished reason
  | none =>
    have looped : Leads (Sheltered g bad) allowed (Run.Rested g c bad)
        (loop (·.search.run.done) .terminated
          (expandBest (H := H) (E := GraphEngine) (P := Subject) (L := L) budget) budget ())
        (Run.Final g c bad) := by
      refine Leads.loop (fun _ => Run.Rested g c bad) ?_ (fun _ => ?_) budget ()
      · exact fun _ r h _ => h.terminated
      · exact leads_expandBest restrained budget
    exact looped.bind finished

/-- If it ends, a best-first search has its accounts settled. -/
theorem ensures_accounts (budget : Nat) :
    Ensures (fun x => x.search.Heeded allowed (Run.Outset g c bad))
      (run budget : ExpeditionM H GraphEngine Subject L Outcome)
      (fun o x => x.search.run.Final g c bad o.reason ∧ o.errors = x.search.run.violations.length)
      fun _ _ => True := by
  apply Ensures.bind (ensures_onSearch_alone (leads_launch name))
  intro _
  apply Ensures.bind (ensures_explored restrained budget)
  intro reason
  have concluded : Search.Leads (L := L) allowed (Run.Final g c bad reason) (conclude reason)
      fun o r => r.Final g c bad o.reason ∧ o.errors = r.violations.length :=
    leads_conclude reason
  exact ((ensures_onSearch_alone concluded).of_imp fun _ h => h.search).imp fun _ _ h => h.run

end BestFirst

end Statewalk
