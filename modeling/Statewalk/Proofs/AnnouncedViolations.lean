import Statewalk.Proofs.BestFirstAccounts
import Statewalk.Proofs.Metering

/-! # Recorded violations are announced

Depth-first and best-first searches over a graph announce every violation that they record, each one
once, and whoever counts the announcements counts the violations.  The one exception is a violation
of the initial state that is found when nothing is left to enter there: it is recorded and nobody is
told of it.
-/

namespace Statewalk

open GraphEngine

variable {L : Type} [Listener GraphEngine Subject L] {allowed : L → Prop} {g : StateGraph}
  {s t : Search GraphEngine Subject L} {o : Outcome}

/-- The violations that a run from `s` to `t` recorded were announced, up to one of the initial
    state. -/
structure Search.Announces (allowed : L → Prop) (g : StateGraph) (s t : Search GraphEngine Subject L)
    (o : Outcome) : Prop where
  errors : o.errors = t.run.violations.length
  ids : t.run.violations.map (·.id) = List.range' 1 o.errors
  announced : ∃ missed, (t.run.journal.announcedViolations ++ missed).Perm (List.range' 1 o.errors) ∧
    (missed ≠ [] → ∃ w ∈ s.run.properties, w.property.breaksAt g 0 = true) ∧
    (s.run.config.matchByMinDepth = false → missed.length ≤ 1) ∧
    (s.run.config.continueOnViolation = false → o.errors ≠ 0 →
      o.reason = if missed = [] then .propertyViolated else .terminated)
  tallied : ∀ i keeps, Listener.Meters GraphEngine Subject i (·.violations) .propertyViolated keeps allowed →
    s.Equipped i keeps allowed →
      (t.run.tally i).violations = t.run.journal.announcedViolations.length

theorem Journal.announcements_propertyViolated (j : Journal) :
    j.announcements .propertyViolated = j.announcedViolations.length := by
  simp [announcements, announcedViolations, List.countP_eq_length_filter]

theorem Run.Final.announces {c : Config} {ps : List (Watched Subject)}
    (final : t.run.Final g c (fun q => ps.any fun w => w.property.breaksAt g q) o.reason)
    (errors : o.errors = t.run.violations.length) (config : s.run.config = c)
    (properties : s.run.properties = ps)
    (tallied : ∀ i keeps, Listener.Meters GraphEngine Subject i (·.violations) .propertyViolated keeps allowed →
      s.Equipped i keeps allowed → t.Metered i (·.violations) .propertyViolated keeps allowed) :
    s.Announces allowed g t o := by
  obtain ⟨missed, policed, few, single⟩ := final
  have accounted := policed.accounted
  have perm := accounted.perm
  rw [List.append_nil] at perm
  subst config properties
  refine ⟨errors, errors ▸ accounted.ids, ⟨missed, errors ▸ perm, ?_, few, ?_⟩, ?_⟩
  · intro some
    simpa using policed.rooted some
  · intro ends some
    apply single ends
    intro none
    simp [errors, none] at some
  · intro i keeps meters equipped
    rw [(tallied i keeps meters equipped).read, Journal.announcements_propertyViolated]

/-- If a fresh search over a graph comes to its end, depth-first or best-first with any heuristic, the
    violations of its static properties were announced.  Nothing is supposed of its listeners but that
    they are restrained. -/
theorem violations_announced
    (restrained : Listener.Restrained (P := Subject) (fun _ : Run GraphEngine Subject => True) allowed)
    (listeners : ∀ l ∈ s.listeners, allowed l) (reporter : ∀ l ∈ s.reporter, allowed l)
    (fresh : Fresh g s.run.engine) (static : ∀ w ∈ s.run.properties, w.property.isStatic = true)
    (unviolated : s.run.violations = []) (untold : s.run.journal.announcedViolations = []) (budget : Nat) :
    (∀ o t, DepthFirst.run budget s = .ok o t → s.Announces allowed g t o) ∧
      ∀ (H : Type) [Heuristic H GraphEngine Subject] (b : BestFirst H GraphEngine) o x,
        BestFirst.run budget { strategy := b, search := s } = .ok o x → s.Announces allowed g x.search o := by
  let bad (q : StateId) : Bool := s.run.properties.any fun w => w.property.breaksAt g q
  have heeded : s.Heeded allowed (Run.Outset g s.run.config bad) :=
    ⟨listeners, reporter, fresh, rfl, ⟨static, fun _ => rfl⟩, unviolated, untold⟩
  have quiet : s.run.journal.announcements .propertyViolated = 0 := by
    rw [Journal.announcements_propertyViolated, untold]
    rfl
  refine ⟨?_, ?_⟩
  · intro o t done
    have accounts := DepthFirst.leads_run (g := g) (c := s.run.config) restrained budget s heeded
    rw [done] at accounts
    refine accounts.run.1.announces accounts.run.2 rfl rfl ?_
    intro i keeps meters equipped
    have metered := Search.ensures_metered_depthFirst meters (by simp) budget s ⟨equipped, quiet⟩
    rw [done] at metered
    exact metered
  · intro H _ b o x done
    have accounts := BestFirst.ensures_accounts (H := H) (g := g) (c := s.run.config) restrained budget
      { strategy := b, search := s } heeded
    rw [done] at accounts
    refine accounts.1.announces accounts.2 rfl rfl ?_
    intro i keeps meters equipped
    have metered := Search.ensures_metered_bestFirst (H := H) meters (by simp) budget
      { strategy := b, search := s } ⟨equipped, quiet⟩
    rw [done] at metered
    exact metered

/-! ## Small searches -/

/-- The initial state is forbidden, and entered twice before it has nothing left to enter: three
    violations are recorded and two of them announced. -/
theorem tangle_violations_announced : ∃ e s, ofGraph .tangle = .ok e ∧
    Search.ofEngine e { continueOnViolation := true } = .ok s ∧
    let watching := (s.addProperty (.forbidden { states := [0] })).observed.addListener (.rules inquirer)
    ∃ o t, DepthFirst.run 60 watching = .ok o t ∧ o.errors = 3 ∧ (t.run.tally 0).violations = 2 ∧
      t.run.journal.announcedViolations.length = 2 ∧ watching.Announces Observer.isMild .tangle t o := by
  refine ⟨_, .fresh _ { continueOnViolation := true }, rfl, rfl, ?_⟩
  intro watching
  have ended : ∃ o t, DepthFirst.run 60 watching = .ok o t ∧ o.errors = 3 ∧
      (t.run.tally 0).violations = 2 :=
    exists_ok_of_check (by decide +kernel)
  obtain ⟨o, t, done, errors, tally⟩ := ended
  have listeners : ∀ l ∈ watching.listeners, l.isMild := by
    have eq : watching.listeners = [.statistics { tally := 0 }, .rules inquirer] := rfl
    simpa [eq, Observer.isMild] using inquirer_isMild
  have static : ∀ w ∈ watching.run.properties, w.property.isStatic = true := by
    have eq : watching.run.properties = [{ key := 0, property := .forbidden { states := [0] } }] := rfl
    simp [eq, Subject.isStatic]
  have reporter : watching.reporter = none := rfl
  have fresh : Fresh .tangle watching.run.engine := fresh_ofGraph (g := .tangle) rfl
  obtain ⟨announces, -⟩ := violations_announced (Observer.restrained _) listeners (by simp [reporter]) fresh
    static rfl rfl 60
  have announces := announces o t done
  -- The statistics alone keep the tally, so that it counts what was announced.
  have equipped : watching.Equipped 0 (Observer.keepsTally 0) Observer.isMild :=
    ⟨listeners, by simp [reporter], rfl, Nat.zero_lt_one⟩
  have told := announces.tallied 0 _ (Observer.meters Tally.counts_violations 0) equipped
  exact ⟨o, t, done, errors, tally, told ▸ tally, announces⟩

/-- Two states, of which the initial one leads to the other. -/
def StateGraph.pair : StateGraph :=
  { name := "pair", states := [{ edges := [{ target := 1 }] }, {}] }

/-- A violation of the initial state is found by the attempt to go on from there when nothing is left
    to enter.  It is recorded and ends the search, and nobody is told of it. -/
theorem initial_violation_untold : ∃ e s, ofGraph .pair = .ok e ∧ Search.ofEngine e {} = .ok s ∧
    let watching := (s.addProperty (.forbidden { states := [0] })).observed
    (∃ o t, DepthFirst.run 20 watching = .ok o t ∧ o.errors = 1 ∧ o.reason = .terminated ∧
      t.run.journal.announcedViolations = [] ∧ (t.run.tally 0).violations = 0) ∧
    ∃ o x, BestFirst.run 20 { strategy := { heuristic := (⟨⟩ : DeepestFirst) }, search := watching } =
        .ok o x ∧ o.errors = 1 ∧ o.reason = .terminated ∧
      x.search.run.journal.announcedViolations = [] ∧ (x.search.run.tally 0).violations = 0 := by
  refine ⟨_, .fresh _ {}, rfl, rfl, ?_, ?_⟩
  · apply exists_ok_of_check
    decide +kernel
  · apply exists_ok_of_check
    decide +kernel

end Statewalk
