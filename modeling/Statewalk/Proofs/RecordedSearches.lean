import Statewalk.Proofs.Bookkeeping
import Statewalk.Proofs.RecursiveTours
import Statewalk.Property.Forbidden
import Statewalk.Session.Rules

/-! # Searches with a recording listener

A rule listener without rules remarks on every event it is told of and does nothing else.  If it is the
only listener of a depth-first search over a graph, its remarks are those of the recursive search.
-/

namespace Statewalk

/-- What a listener with the given name remarks. -/
def Note.remark (name : String) (n : Note) : Json :=
  .arr [.text name, .text n.event.label, .nat n.depth, .nat n.state]

namespace RuleListener

variable {E P : Type} [Engine E] [Property P]

/-- The run after a recording listener was told of an event. -/
def recorded (name : String) (event : Event) (r : Run E P) : Run E P :=
  (r.record (.called name event)).record
    (.remarked (Note.remark name ⟨event, r.depth, Engine.stateId r.engine⟩))

theorem tellAll_recorder (name : String) (event : Event) (r : Run E P) :
    Listener.tellAll event [({ name } : RuleListener P)] r =
      { verdict := .ok (), listener := [{ name }], run := recorded name event r } := rfl

/-- A listener that keeps no tally. -/
def audience : Audience E P :=
  { Audience.nobody with size := 1 }

theorem audience_hears (c : Config) (name : String) :
    (audience : Audience E P).Hears c [({ name } : RuleListener P)] where
  size := rfl
  tells event r m j _ _ _ := by
    refine ⟨_, tellAll_recorder name event { r with memory := m, journal := j }, ?_⟩
    exact (Journal.told_record_of_not_told rfl).trans (Journal.told_record_of_not_told rfl)
  recalls _ _ _ recalls := recalls

end RuleListener

namespace Search

variable {E P : Type} [Engine E] [Property P] {name : String}

/-- A recording listener is the only one, and it remarked on all that was announced. -/
structure Recorded (name : String) (s : Search E P (RuleListener P)) : Prop where
  listeners : s.listeners = [{ name }]
  reporter : s.reporter = none
  remarks : s.run.journal.remarks = s.run.journal.notes.map (Note.remark name)

omit [Engine E] [Property P] in
theorem Recorded.quiet (s t : Search E P (RuleListener P)) (h : s.Recorded name) (quiet : Quiet s t) :
    t.Recorded name := by
  refine ⟨quiet.listeners.trans h.listeners, quiet.reporter.trans h.reporter, ?_⟩
  rw [quiet.run.remarks, h.remarks, Journal.notes, Journal.notes, quiet.run.bulletins]

theorem keeps_announce_recorded (event : Event) :
    Keeps (Recorded (E := E) (P := P) name) (announce event) := by
  rintro ⟨run, listeners, reporter⟩ ⟨rfl, rfl, remarks⟩
  let s : Search E P (RuleListener P) := { run, listeners := [{ name }], reporter := none }
  refine ⟨rfl, rfl, ?_⟩
  show (RuleListener.recorded name event (run.record (.announced (s.bulletin event)))).journal.remarks =
    (RuleListener.recorded name event (run.record (.announced (s.bulletin event)))).journal.notes.map _
  have remarks : run.journal.remarks = run.journal.notes.map (Note.remark name) := remarks
  simp only [Journal.notes] at remarks
  simp [RuleListener.recorded, Run.record, Journal.notes, Entry.remark?, Entry.bulletin?, remarks, s,
    bulletin, Bulletin.note]

theorem conserved_recorded (name : String) : Conserved (Recorded (E := E) (P := P) name) where
  quiet := Recorded.quiet
  announced event _ := keeps_announce_recorded event

end Search

theorem Search.Recorded.of_ends {E P : Type} [Engine E] [Checkable E P] {name : String}
    {s t : Search E P (RuleListener P)} {o : Outcome} (h : s.Recorded name)
    (ends : Ends DepthFirst.run s o t) : t.Recorded name := by
  obtain ⟨budget, done⟩ := ends
  have kept := DepthFirst.ensures_conserved (conserved_recorded name) Recorded.quiet
    (keeps_announce_recorded .searchStarted) budget s h
  rw [done budget (Nat.le_refl _)] at kept
  exact kept

/-- A fresh depth-first search of a valid graph, without properties and with a recording listener, comes
    to its end, and its listener remarked on what the recursive search tells and on nothing else. -/
theorem recording_follows_itinerary {P : Type} [Checkable GraphEngine P] {g : StateGraph}
    (valid : g.validate = .ok ()) (small : g.size < 2 ^ 63) (name : String) :
    ∃ e, GraphEngine.ofGraph g = .ok e ∧
      ∃ s : Search GraphEngine P (RuleListener P), Search.ofEngine e {} = .ok s ∧
        ∃ o t log, Ends DepthFirst.run (s.addListener { name }) o t ∧
          (∀ log', g.Itinerary log' ↔ log' = log) ∧
          t.run.journal.remarks = log.map (Note.remark name) := by
  obtain ⟨e, made⟩ : ∃ e, GraphEngine.ofGraph g = .ok e := ⟨_, by rw [GraphEngine.ofGraph, valid]; rfl⟩
  let s : Search GraphEngine P (RuleListener P) := .fresh e {}
  let listening := s.addListener { name }
  have start : listening.run.AtStart g {} [] (fun _ => false) :=
    .of_fresh (GraphEngine.fresh_ofGraph made) rfl rfl rfl
  have mirrors : Mirrors {} [{ name }] listening listening.run :=
    Mirrors.rfl_of_unlimited (s := listening) (Memory.unlimited_configure rfl) rfl rfl rfl
  obtain ⟨reason, q, t, ends, finished, mirrors'⟩ :=
    DepthFirst.ends_graph (RuleListener.audience_hears {} name) Search.guards_nil valid
      (Config.exhaustive_default small) small start mirrors
  have itinerary := finished.itinerary start made rfl
  have recorded : t.Recorded name := .of_ends ⟨rfl, rfl, rfl⟩ ends
  refine ⟨e, made, s, rfl, _, t, _, ends, fun log' => ⟨fun other => other.unique itinerary, ?_⟩, ?_⟩
  · rintro rfl
    exact itinerary
  · rw [recorded.remarks, Journal.notes, mirrors'.bulletins]
    rfl

theorem tangle_recorded : ∃ e, GraphEngine.ofGraph .tangle = .ok e ∧
    ∃ s : Search GraphEngine ForbiddenStates (RuleListener ForbiddenStates),
      Search.ofEngine e {} = .ok s ∧
      ∃ o t, Ends DepthFirst.run (s.addListener { name := "log" }) o t ∧
        t.run.journal.remarks = StateGraph.tangleNotes.map (Note.remark "log") := by
  obtain ⟨e, made, s, created, o, t, log, ends, itinerary, remarks⟩ :=
    recording_follows_itinerary (P := ForbiddenStates) (g := .tangle) (by decide) (by decide) "log"
  rw [← (itinerary _).1 StateGraph.itinerary_tangle] at remarks
  exact ⟨e, made, s, created, o, t, ends, remarks⟩

end Statewalk
