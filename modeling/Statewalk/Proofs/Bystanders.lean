import Statewalk.Proofs.DepthFirstOutline
import Statewalk.Proofs.Impartiality
import Statewalk.Proofs.Reports
import Statewalk.Proofs.Tandem

/-! # Bystanders

A listener that keeps a tally up to date, as statistics do, and does nothing else.  A search that it
joins is compared with the search it is missing from: all that one of them does is done by the other, and
the runs stay abreast.  The bystander asks for newness when the search went into a state, and thereby may
change what is recorded before the search itself asks; the answer is kept until the engine moves, so that
nobody notices.
-/

namespace Statewalk

/-! ## Keeping a tally -/

/-- On runs with this configuration the keepers bring the tally up to date as statistics do, and do
    nothing else. -/
def Listener.KeepsTally (P : Type) {L : Type} [Listener GraphEngine P L] (i : Nat) (config : Config)
    (keeper : L → Prop) : Prop :=
  ∀ (event : Event) (x : L) (r r' : Run GraphEngine P), keeper x → r.config = config →
    Statistics.update i event r = .ok () r' →
      ∃ x', keeper x' ∧ Listener.hear event (x, r) = .ok () (x', r')

namespace Reporter

variable {P B : Type} {m : Reporter B} {r r' : Run GraphEngine P} {event : Event}

theorem startTimer_of_untimed (untimed : r.config.probeInterval = none) :
    startTimer (m, r) = .ok () (m, r) := by
  simp only [startTimer, EStateM.get_bind_apply]
  rw [untimed]
  rfl

theorem stopTimer_of_still (still : m.ticking = false) : stopTimer (m, r) = .ok () (m, r) := by
  simp only [stopTimer, EStateM.get_bind_apply]
  rw [still]
  rfl

theorem keepTally_of_updated (updated : Statistics.update m.tally event r = .ok () r') :
    keepTally event (m, r) = .ok () (m, r') := by
  show Listener.onRun (Statistics.update m.tally event) (m, r) = _
  rw [Listener.onRun, updated]

variable [Publisher GraphEngine P B]

theorem publish_of_alone (alone : m.publishers = []) (p : Publication P) :
    publish p (m, r) = .ok () (m, r) := by
  obtain ⟨tally, publishers, ticking, last⟩ := m
  cases alone
  rfl

variable [Property P]

/-- A reporter without publishers and without a timer only keeps its tally and its last report. -/
theorem hear_of_alone (alone : m.publishers = []) (still : m.ticking = false)
    (updated : Statistics.update m.tally event r = .ok () r') (untimed : r'.config.probeInterval = none) :
    ∃ report, Listener.hear event (m, r) = .ok () ({ m with lastReport := report }, r') := by
  have kept := keepTally_of_updated updated
  show ∃ report, hear event (m, r) = _
  cases event with
  | searchStarted =>
    refine ⟨none, (EStateM.bind_of_ok kept).trans ?_⟩
    exact (EStateM.bind_of_ok (startTimer_of_untimed untimed)).trans
      (publish_of_alone (m := { m with lastReport := none }) alone _)
  | searchFinished =>
    refine ⟨some (collect m.tally r'), (EStateM.bind_of_ok (stopTimer_of_still still)).trans ?_⟩
    refine (EStateM.bind_of_ok kept).trans ?_
    show finish (m, r') = _
    rw [finish, publish_of_alone alone]
  | propertyViolated =>
    refine ⟨m.lastReport, (EStateM.bind_of_ok kept).trans ?_⟩
    simp only [EStateM.get_bind_apply]
    cases r'.violations.getLast? with
    | none => rfl
    | some v => exact publish_of_alone alone _
  | stateAdvanced | searchConstraintHit | searchProbed =>
    exact ⟨m.lastReport, (EStateM.bind_of_ok kept).trans (publish_of_alone alone _)⟩
  | _ => exact ⟨m.lastReport, kept⟩

end Reporter

/-- Statistics, or a reporter that has neither publishers nor a timer to run, with a tally to keep. -/
inductive Bystander {L B : Type} (i : Nat) (config : Config) (statistics : Statistics → L)
    (reporter : Reporter B → L) : L → Prop where
  | statistics : Bystander i config statistics reporter (statistics { tally := i })
  | reporter (m : Reporter B) : m.tally = i → m.publishers = [] → m.ticking = false →
      config.probeInterval = none → Bystander i config statistics reporter (reporter m)

theorem Bystander.keepsTally {P L B : Type} [Property P] [Publisher GraphEngine P B] [Listener GraphEngine P L]
    {statistics : Statistics → L} {reporter : Reporter B → L} (counts : Listener.Wraps GraphEngine P statistics)
    (reports : Listener.Wraps GraphEngine P reporter) (i : Nat) (config : Config) :
    Listener.KeepsTally P i config (Bystander i config statistics reporter) := by
  intro event x r r' bystander configured updated
  cases bystander with
  | statistics =>
    refine ⟨_, .statistics, ?_⟩
    have heard : Listener.hear event (({ tally := i } : Statistics), r) = .ok () ({ tally := i }, r') := by
      show Listener.onRun (Statistics.update i event) (_, r) = _
      rw [Listener.onRun, updated]
    rw [counts, zoom, heard]
  | reporter m tally alone still untimed =>
    subst tally
    have config' : r'.config.probeInterval = none := by
      rw [Statistics.config_of_update updated, configured, untimed]
    obtain ⟨report, heard⟩ := Reporter.hear_of_alone alone still updated config'
    refine ⟨_, .reporter { m with lastReport := report } rfl alone still untimed, ?_⟩
    rw [reports, zoom, heard]

/-! ## Runs abreast -/

namespace Run.Abreast

variable {P : Type} {c : Company} {strict : Prop} {r r' : Run GraphEngine P}

/-- A change of what everybody sees, and of nothing that a question depends on. -/
theorem flags (h : r.Abreast c strict r') {f : Run GraphEngine P → Run GraphEngine P}
    (visible : ∀ r depths query tallies journal,
      f { r with depths := depths, lastQuery := query, tallies := tallies, journal := journal } =
        { f r with depths := depths, lastQuery := query, tallies := tallies, journal := journal })
    (same : ∀ r, (f r).tallies = r.tallies ∧ (f r).journal = r.journal ∧ (f r).depths = r.depths ∧
      (f r).lastQuery = r.lastQuery ∧ (f r).inquire = r.inquire) : (f r).Abreast c strict (f r') := by
  have ⟨tallies, journal, depths, query, inquiry⟩ := same r
  have ⟨tallies', journal', depths', query', inquiry'⟩ := same r'
  refine ⟨⟨?_, ?_, ?_⟩, ?_, ?_⟩
  · obtain ⟨depths, query, tallies, journal, rfl⟩ := h.seen
    exact ⟨depths, query, tallies, journal, visible r depths query tallies journal⟩
  · rw [tallies, tallies']
    exact h.tallies
  · rw [inquiry, inquiry']
    exact h.inquiry
  · rw [journal, journal']
    exact h.journal
  · rw [depths, depths', query, query']
    exact h.known

/-- Where the same is known in both, all that the runs differ in is a tally and their journals. -/
theorem exists_eq (h : r.Abreast c True r') : ∃ tallies journal,
    r' = { r with tallies := tallies, journal := journal } := by
  obtain ⟨depths, query⟩ := h.known trivial
  obtain ⟨_, _, tallies, journal, rfl⟩ := h.seen
  exact ⟨tallies, journal, by rw [← depths, ← query]⟩

theorem of_tallies {tallies : List Tally} {journal : Journal}
    (others : ∀ j, j ≠ c.tally → tallies[j]? = r.tallies[j]?)
    (accompanies : c.Accompanies r.journal.recent journal.recent) :
    r.Abreast c True { r with tallies := tallies, journal := journal } :=
  ⟨⟨⟨r.depths, r.lastQuery, tallies, journal, rfl⟩, others, rfl⟩, accompanies, fun _ => ⟨rfl, rfl⟩⟩

theorem config_eq (h : r.Abreast c strict r') : r'.config = r.config := by
  obtain ⟨depths, query, tallies, journal, rfl⟩ := h.seen
  rfl

/-- An announcement is entered in both journals, with as many listeners as there are. -/
theorem announced (h : r.Abreast c strict r') (event : Event) (listeners listeners' : Nat) :
    (r.record (.announced (r.bulletin listeners event))).Abreast c strict
      (r'.record (.announced (r'.bulletin listeners' event))) := by
  obtain ⟨depths, query, tallies, journal, rfl⟩ := h.seen
  exact ⟨⟨⟨depths, query, tallies, _, rfl⟩, h.tallies, h.inquiry⟩, h.journal.announced _ listeners', h.known⟩

/-- Only the second run was asked: what a question comes to is still the same. -/
theorem inquired_besides (h : r.Abreast c strict r') (lax : ¬ strict) {answer : Bool} {depths : DepthTable}
    {query : Option Query} (asked : r.inquire = .ok (answer, depths, query)) :
    r.Abreast c strict { r' with depths := depths, lastQuery := query } := by
  have asked' := h.inquiry.trans asked
  obtain ⟨_, _, tallies, journal, rfl⟩ := h.seen
  -- What was recorded is what the first run will record when it is asked.
  refine ⟨⟨⟨depths, query, tallies, journal, rfl⟩, h.tallies, ?_⟩, h.journal, fun strict => absurd strict lax⟩
  rw [inquire_again asked', asked]

/-- A tally is kept in the second run only.  Where that takes a question, it has to be answered. -/
theorem update (h : r.Abreast c strict r') {event : Event}
    (askable : event = .stateAdvanced → ¬ strict ∧ ∃ result, r.inquire = .ok result) :
    ∃ r'', Statistics.update c.tally event r' = .ok () r'' ∧ r.Abreast c strict r'' := by
  have counted := h.modifyOwn (Statistics.count event r'.depth)
  by_cases advanced : event = .stateAdvanced
  · subst advanced
    obtain ⟨lax, ⟨answer, depths, query⟩, asked⟩ := askable rfl
    have asked' := isNew_of_inquire (counted.inquiry.trans asked)
    exact ⟨_, Statistics.update_of_asked asked', (counted.inquired_besides lax asked).modifyOwn _⟩
  · exact ⟨_, Statistics.update_of_ne advanced _ r', counted⟩

end Run.Abreast

/-! ## Seats -/

/-- Where a listener joins a search: among the listeners, before the one with a number, or as the
    reporter, after all of them. -/
inductive Seat where
  | among (position : Nat)
  | last

namespace Seat

variable {L : Type}

/-- The listeners after one has joined. -/
def listeners (x : L) : Seat → List L → List L
  | .among position, ls => ls.insertIdx position x
  | .last, ls => ls

/-- The reporter after a listener has joined. -/
def reporter (x : L) : Seat → Option L → Option L
  | .among _, l => l
  | .last, _ => some x

end Seat

/-! ## Telling listeners in tandem -/

section Telling

variable {P L : Type} [Listener GraphEngine P L] {c : Company} {config : Config} {strict : Prop}
  {allowed keeper : L → Prop} {J : Run GraphEngine P → Prop} {event : Event}

/-- What comes of telling listeners in both runs: the same verdict, listeners that `alike` relates, and
    runs that are still abreast, the first of them as `J` says. -/
structure Listener.Told.Together {M : Type} (c : Company) (strict : Prop) (alike : M → M → Prop)
    (J : Run GraphEngine P → Prop) (told told' : Listener.Told M GraphEngine P) : Prop where
  verdict : told'.verdict = told.verdict
  listener : alike told.listener told'.listener
  run : told.run.Abreast c strict told'.run
  held : J told.run

/-- The other listeners are impartial, and the keepers keep the tally of the company under its names. -/
structure Listener.Unobtrusive (P : Type) {L : Type} [Listener GraphEngine P L] (c : Company)
    (config : Config) (allowed keeper : L → Prop) : Prop where
  impartial : Listener.Impartial P c.tally allowed
  keeps : Listener.KeepsTally P c.tally config keeper
  named : ∀ x, keeper x → c.isNamed (Named.name x)

/-- Besides, what is said of the first run outlasts calls, and settles its configuration. -/
structure Listener.Unnoticed (c : Company) (config : Config) (allowed keeper : L → Prop)
    (J : Run GraphEngine P → Prop) : Prop extends Unobtrusive P c config allowed keeper where
  robust : Run.Robust J
  config : ∀ r, J r → r.config = config

namespace Listener.Unnoticed

variable (h : Unnoticed c config allowed keeper J)

include h

theorem tell_other (event : Event) {l : L} {r r' : Run GraphEngine P} (hl : allowed l) (abreast : r.Abreast c strict r')
    (hr : J r) : (tell event l r).Together c strict (fun l l' => allowed l ∧ l' = l) J (tell event l r') := by
  have called := abreast.record (.called (Named.name l) event)
  have held : J (r.record (.called (Named.name l) event)) := h.robust _ _ hr (.aside r rfl)
  obtain ⟨requests, verdict, l', hl', heard, heard'⟩ :=
    h.impartial event l _ _ hl called.toLooksLike
  have after := Request.abreast_performAll requests called
  have kept := h.robust.calls held (Request.calls_performAll requests _)
  unfold tell
  rw [heard, heard']
  cases verdict with
  | ok u => exact ⟨rfl, ⟨hl', rfl⟩, after, kept⟩
  | error f =>
    refine ⟨rfl, ⟨hl', rfl⟩, ?_, ?_⟩
    · cases f <;> first | exact after | exact after.record _
    · cases f <;> first | exact kept | exact h.robust _ _ kept (.aside _ rfl)

theorem tellAll_others (event : Event) {ls : List L} {r r' : Run GraphEngine P} (hls : ∀ l ∈ ls, allowed l)
    (abreast : r.Abreast c strict r') (hr : J r) :
    (tellAll event ls r).Together c strict (fun ls ls' => (∀ l ∈ ls, allowed l) ∧ ls' = ls) J
      (tellAll event ls r') := by
  induction ls generalizing r r' with
  | nil => exact ⟨rfl, ⟨hls, rfl⟩, abreast, hr⟩
  | cons l ls ih =>
    obtain ⟨hl, others⟩ := List.forall_mem_cons.1 hls
    have first := h.tell_other event hl abreast hr
    have rest := ih others first.run first.held
    obtain ⟨allowed₁, same₁⟩ := first.listener
    obtain ⟨allowed₂, same₂⟩ := rest.listener
    simp only [tellAll, first.verdict]
    cases (tell event l r).verdict with
    | error f => exact ⟨rfl, ⟨List.forall_mem_cons.2 ⟨allowed₁, others⟩, by rw [same₁]⟩, first.run, first.held⟩
    | ok u =>
      exact ⟨rest.verdict, ⟨List.forall_mem_cons.2 ⟨allowed₁, allowed₂⟩, by rw [same₁, same₂]⟩, rest.run,
        rest.held⟩

/-- The bystander is told in the second run only, and never fails. -/
theorem tell_keeper {x : L} {r r' : Run GraphEngine P} (hx : keeper x) (abreast : r.Abreast c strict r')
    (hr : J r) (askable : event = .stateAdvanced → ¬ strict ∧ ∀ r, J r → ∃ result, r.inquire = .ok result) :
    (tell event x r').verdict = .ok () ∧ keeper (tell event x r').listener ∧
      r.Abreast c strict (tell event x r').run := by
  have called : r.Abreast c strict (r'.record (.called (Named.name x) event)) := by
    obtain ⟨depths, query, tallies, journal, rfl⟩ := abreast.seen
    exact ⟨⟨⟨depths, query, tallies, _, rfl⟩, abreast.tallies, abreast.inquiry⟩,
      .called event (h.named x hx) abreast.journal, abreast.known⟩
  obtain ⟨r'', updated, after⟩ := called.update fun advanced : event = .stateAdvanced =>
    ⟨(askable advanced).1, (askable advanced).2 r hr⟩
  obtain ⟨x', hx', heard⟩ := h.keeps event x _ r'' hx (called.config_eq.trans (h.config r hr)) updated
  unfold tell
  rw [heard]
  exact ⟨rfl, hx', after⟩

theorem tellAll_joined {ls : List L} {r r' : Run GraphEngine P} {x : L} (position : Nat) (hx : keeper x)
    (hls : ∀ l ∈ ls, allowed l) (abreast : r.Abreast c strict r') (hr : J r)
    (askable : event = .stateAdvanced → ¬ strict ∧ ∀ r, J r → ∃ result, r.inquire = .ok result) :
    (tellAll event ls r).Together c strict
      (fun ls ls' => (∀ l ∈ ls, allowed l) ∧ ∃ x, keeper x ∧ ls' = ls.insertIdx position x) J
      (tellAll event (ls.insertIdx position x) r') := by
  -- Those before the bystander are told the same; after it was told, the runs are still abreast.
  induction position generalizing ls r r' with
  | zero =>
    obtain ⟨verdict, hx', after⟩ := h.tell_keeper hx abreast hr askable
    have rest := h.tellAll_others event hls after hr
    simp only [List.insertIdx_zero, tellAll, verdict]
    exact ⟨rest.verdict, ⟨rest.listener.1, _, hx', by rw [rest.listener.2]⟩, rest.run, rest.held⟩
  | succ position ih =>
    cases ls with
    | nil =>
      -- There is no such position, and nobody has joined.
      exact ⟨rfl, ⟨hls, x, hx, rfl⟩, abreast, hr⟩
    | cons l ls =>
      obtain ⟨hl, others⟩ := List.forall_mem_cons.1 hls
      have first := h.tell_other event hl abreast hr
      have rest := ih others first.run first.held
      obtain ⟨allowed₁, same₁⟩ := first.listener
      obtain ⟨allowed₂, y, hy, same₂⟩ := rest.listener
      simp only [List.insertIdx_succ_cons, tellAll, first.verdict]
      cases (tell event l r).verdict with
      | error f =>
        refine ⟨rfl, ⟨List.forall_mem_cons.2 ⟨allowed₁, others⟩, x, hx, ?_⟩, first.run, first.held⟩
        rw [same₁, List.insertIdx_succ_cons]
      | ok u =>
        refine ⟨rest.verdict, ⟨List.forall_mem_cons.2 ⟨allowed₁, allowed₂⟩, y, hy, ?_⟩, rest.run, rest.held⟩
        simp only
        rw [same₁, same₂, List.insertIdx_succ_cons]

end Listener.Unnoticed

end Telling

/-! ## Searches in tandem -/

namespace Search

variable {P L : Type} {c : Company} {seat : Seat} {keeper allowed : L → Prop} {strict : Prop}
  {J : Run GraphEngine P → Prop} {α : Type}

/-- The second search is the first one with a keeper in a seat, and their runs are abreast. -/
structure Beside (c : Company) (seat : Seat) (keeper : L → Prop) (strict : Prop)
    (s t : Search GraphEngine P L) : Prop where
  free : seat = .last → s.reporter = none
  joined : ∃ x, keeper x ∧ t.listeners = seat.listeners x s.listeners ∧
    t.reporter = seat.reporter x s.reporter
  run : s.run.Abreast c strict t.run

/-- A keeper sits beside the other listeners, which are allowed, and the first run is as `J` says. -/
def Level (c : Company) (seat : Seat) (keeper allowed : L → Prop) (strict : Prop)
    (J : Run GraphEngine P → Prop) (s t : Search GraphEngine P L) : Prop :=
  s.Beside c seat keeper strict t ∧ s.Heeded allowed J

theorem Beside.relax {s t : Search GraphEngine P L} (h : s.Beside c seat keeper strict t) :
    s.Beside c seat keeper False t :=
  ⟨h.free, h.joined, h.run.relax⟩

theorem Level.imp {s t : Search GraphEngine P L} {K : Run GraphEngine P → Prop}
    (h : s.Level c seat keeper allowed strict J t) (imp : ∀ r, J r → K r) :
    s.Level c seat keeper allowed strict K t :=
  ⟨h.1, h.2.imp imp⟩

theorem Level.relax {s t : Search GraphEngine P L} (h : s.Level c seat keeper allowed strict J t) :
    s.Level c seat keeper allowed False J t :=
  ⟨h.1.relax, h.2⟩

theorem tandem_update {f : Run GraphEngine P → α × Run GraphEngine P} {strict' : Prop}
    (even : ∀ r r', r.Abreast c strict r' → (f r').1 = (f r).1 ∧ (f r).2.Abreast c strict' (f r').2) :
    Tandem (Beside c seat keeper strict) (update f) (update f)
      (fun _ : α => Beside (L := L) c seat keeper strict') (Beside c seat keeper False) := by
  intro s t beside
  obtain ⟨same, after⟩ := even _ _ beside.run
  rw [update_apply, update_apply, same]
  exact .ok ⟨beside.free, beside.joined, after⟩

theorem tandem_change {f : Run GraphEngine P → Run GraphEngine P} {strict' : Prop}
    (even : ∀ r r', r.Abreast c strict r' → (f r).Abreast c strict' (f r')) :
    Tandem (Beside c seat keeper strict) (change f) (change f)
      (fun _ => Beside (L := L) c seat keeper strict') (Beside c seat keeper False) :=
  tandem_update (f := fun r => ((), f r)) fun r r' abreast => ⟨rfl, even r r' abreast⟩

theorem tandem_look {f : Run GraphEngine P → α}
    (visible : ∀ r depths query tallies journal,
      f { r with depths := depths, lastQuery := query, tallies := tallies, journal := journal } = f r) :
    Tandem (Beside c seat keeper strict) (look f) (look f)
      (fun _ => Beside (L := L) c seat keeper strict) (Beside c seat keeper False) := by
  refine tandem_update (f := fun r => (f r, r)) fun r r' abreast => ⟨?_, abreast⟩
  obtain ⟨depths, query, tallies, journal, rfl⟩ := abreast.seen
  exact visible r depths query tallies journal

theorem tandem_onRun {x : RunM GraphEngine P α} {strict' : Prop}
    (h : Tandem (Run.Abreast c strict) x x (fun _ => Run.Abreast c strict') (Run.Abreast c False)) :
    Tandem (Beside c seat keeper strict) (onRun x) (onRun x)
      (fun _ => Beside (L := L) c seat keeper strict') (Beside c seat keeper False) := by
  intro s t beside
  have after := h _ _ beside.run
  unfold onRun
  generalize x s.run = p at after ⊢
  generalize x t.run = q at after ⊢
  cases after with
  | ok after => exact .ok ⟨beside.free, beside.joined, after⟩
  | error after => exact .error ⟨beside.free, beside.joined, after⟩

variable [Listener GraphEngine P L] {config : Config} {event : Event}

theorem tandem_broadcast (h : Listener.Unnoticed c config allowed keeper J)
    (askable : event = .stateAdvanced → ¬ strict ∧ ∀ r, J r → ∃ result, r.inquire = .ok result) :
    Tandem (Level c seat keeper allowed strict J) (broadcast event) (broadcast event)
      (fun _ => Level c seat keeper allowed strict J) (Beside c seat keeper False) := by
  rintro ⟨run, ls, reporter⟩ ⟨run', ls', reporter'⟩ ⟨⟨free, ⟨x, hx, joined, joined'⟩, abreast⟩, hls, hreporter, hr⟩
  cases joined
  cases joined'
  cases seat with
  | among position =>
    -- The bystander is one of the listeners; the reporter is the same in both searches.
    have told := h.tellAll_joined position hx hls abreast hr askable
    obtain ⟨allowed', y, hy, same⟩ := told.listener
    simp only [broadcast, told.verdict]
    cases (Listener.tellAll event ls run).verdict with
    | error f => exact .error ⟨free, ⟨y, hy, same, rfl⟩, told.run.relax⟩
    | ok u =>
      cases reporter with
      | none => exact .ok ⟨⟨free, ⟨y, hy, same, rfl⟩, told.run⟩, allowed', hreporter, told.held⟩
      | some l =>
        have last := h.tell_other event (hreporter l rfl) told.run told.held
        obtain ⟨hl, same'⟩ := last.listener
        have elsewhere {o : Option L} (eq : Seat.among position = .last) : o = none := by cases eq
        simp only [last.verdict, same']
        split
        · exact .error ⟨elsewhere, ⟨y, hy, same, rfl⟩, last.run.relax⟩
        · exact .ok ⟨⟨elsewhere, ⟨y, hy, same, rfl⟩, last.run⟩, allowed', by simpa using hl, last.held⟩
  | last =>
    -- The bystander is the reporter, which the first search does not have.
    obtain rfl : reporter = none := free rfl
    have told := h.tellAll_others event hls abreast hr
    obtain ⟨allowed', same⟩ := told.listener
    simp only [broadcast, told.verdict]
    cases (Listener.tellAll event ls run).verdict with
    | error f => exact .error ⟨free, ⟨x, hx, same, rfl⟩, told.run.relax⟩
    | ok u =>
      obtain ⟨verdict, hy, after⟩ := h.tell_keeper hx told.run told.held askable
      simp only [verdict]
      exact .ok ⟨⟨free, ⟨_, hy, same, rfl⟩, after⟩, allowed', hreporter, told.held⟩

theorem tandem_announce (h : Listener.Unnoticed c config allowed keeper J)
    (entered : ∀ r b, J r → J (r.record (.announced b)))
    (askable : event = .stateAdvanced → ¬ strict ∧ ∀ r, J r → ∃ result, r.inquire = .ok result) :
    Tandem (Level c seat keeper allowed strict J) (announce event) (announce event)
      (fun _ => Level c seat keeper allowed strict J) (Beside c seat keeper False) := by
  refine Tandem.bind (S := fun _ => Level c seat keeper allowed strict J) ?_ fun _ => tandem_broadcast h askable
  rintro s t ⟨⟨free, joined, abreast⟩, heeded⟩
  have announced := abreast.announced event s.listeners.length t.listeners.length
  exact .ok ⟨⟨free, joined, announced⟩, heeded.listeners, heeded.reporter, entered _ _ heeded.run⟩

end Search

end Statewalk
