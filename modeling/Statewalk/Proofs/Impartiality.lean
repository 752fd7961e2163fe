import Statewalk.Proofs.Newness
import Statewalk.Proofs.Telling

/-! # Impartial listeners

Two runs may differ in what is recorded of depths, in the last answer on newness, in one tally and in
their journals, and still look alike to those who see neither.  A listener is impartial when it does the
same to runs that look alike: it makes the same requests, asks the same questions, and comes to the same
end.  `Run.Abreast` is what two runs have in common over which nobody else but one more listener hovers,
and whatever an impartial listener does keeps it.
-/

namespace Statewalk

/-! ## The question -/

namespace Run

variable {E P : Type} [Engine E] {r : Run E P} {answer : Bool} {depths : DepthTable}
  {query : Option Query} {f : Failure}

/-- What the question whether the current state is new comes to: the answer, and what is known then. -/
def inquire (r : Run E P) : Except Failure (Bool × DepthTable × Option Query) :=
  if r.matching then
    match r.cachedAnswer? with
    | some answer => .ok (answer, r.depths, r.lastQuery)
    | none => r.judge.map fun (answer, depths) =>
        (answer, depths, some { state := Engine.stateId r.engine, depth := r.depth, answer })
  else .ok (true, r.depths, r.lastQuery)

theorem inquire_of_cached (matching : r.matching = true) (cached : r.cachedAnswer? = some answer) :
    r.inquire = .ok (answer, r.depths, r.lastQuery) := by
  rw [inquire, if_pos matching, cached]

theorem isNew_cases_inquire (r : Run E P) :
    (∃ answer depths query, r.inquire = .ok (answer, depths, query) ∧
      isNew r = .ok answer { r with depths := depths, lastQuery := query }) ∨
      ∃ f, r.inquire = .error f ∧ isNew r = .error f r := by
  by_cases matching : r.matching = true
  · cases cached : r.cachedAnswer? with
    | some kept => exact .inl ⟨_, _, _, inquire_of_cached matching cached, isNew_of_cached matching cached⟩
    | none =>
      simp only [inquire, if_pos matching, cached]
      cases judged : r.judge with
      | ok result => exact .inl ⟨_, _, _, rfl, isNew_of_judged matching cached judged⟩
      | error f => exact .inr ⟨f, rfl, isNew_of_failed matching cached judged⟩
  · refine .inl ⟨_, _, _, by rw [inquire, if_neg matching], ?_⟩
    simp only [isNew, EStateM.get_bind_apply]
    rw [if_neg matching]
    rfl

theorem isNew_of_inquire (h : r.inquire = .ok (answer, depths, query)) :
    isNew r = .ok answer { r with depths := depths, lastQuery := query } := by
  obtain ⟨_, _, _, asked, given⟩ | ⟨_, failed, -⟩ := isNew_cases_inquire r
  · cases asked.symm.trans h
    exact given
  · cases failed.symm.trans h

theorem isNew_of_inquire_error (h : r.inquire = .error f) : isNew r = .error f r := by
  obtain ⟨_, _, _, asked, -⟩ | ⟨_, failed, refused⟩ := isNew_cases_inquire r
  · cases asked.symm.trans h
  · cases failed.symm.trans h
    exact refused

/-- Asked again, the run gives the same answer. -/
theorem inquire_again (h : r.inquire = .ok (answer, depths, query)) :
    inquire { r with depths := depths, lastQuery := query } = .ok (answer, depths, query) := by
  by_cases matching : r.matching = true
  · have kept := cachedAnswer?_of_isNew matching (isNew_of_inquire h)
    exact inquire_of_cached matching kept
  · rw [inquire, if_neg matching] at h
    cases h
    exact if_neg matching

/-- The run once the question was asked, in vain or not. -/
def inquired (r : Run E P) : Run E P :=
  match r.inquire with
  | .ok (_, depths, query) => { r with depths := depths, lastQuery := query }
  | .error _ => r

theorem inquired_of_ok (h : r.inquire = .ok (answer, depths, query)) :
    r.inquired = { r with depths := depths, lastQuery := query } := by
  rw [inquired, h]

theorem inquired_of_error (h : r.inquire = .error f) : r.inquired = r := by
  rw [inquired, h]

end Run

/-! ## Runs that look alike -/

/-- Who keeps one of two runs company: the number of the tally that it keeps and the names that it has,
    and the entries of the two journals, the latest first, before it came. -/
structure Company where
  tally : Nat
  isNamed : String → Prop
  before : List Entry
  joined : List Entry

/-- The second journal holds what the first does, and besides only calls of the company.  How many
    listeners there are is not compared. -/
inductive Company.Accompanies (c : Company) : List Entry → List Entry → Prop where
  | start : Accompanies c c.before c.joined
  | both {js ks : List Entry} (e : Entry) : Accompanies c js ks → Accompanies c (e :: js) (e :: ks)
  | announced {js ks : List Entry} (b : Bulletin) (listeners : Nat) : Accompanies c js ks →
      Accompanies c (.announced b :: js) (.announced { b with listeners } :: ks)
  | called {js ks : List Entry} {name : String} (event : Event) : c.isNamed name →
      Accompanies c js ks → Accompanies c js (.called name event :: ks)

namespace Run

variable {P : Type} {r r' : Run GraphEngine P} {c : Company} {i : Nat} {strict : Prop}

/-- The runs agree but for the recorded depths, the last answer, one tally and the journal, and to ask
    for newness comes to the same in both. -/
structure LooksLike (i : Nat) (r r' : Run GraphEngine P) : Prop where
  seen : ∃ depths query tallies journal,
    r' = { r with depths := depths, lastQuery := query, tallies := tallies, journal := journal }
  tallies : ∀ j, j ≠ i → r'.tallies[j]? = r.tallies[j]?
  inquiry : r'.inquire = r.inquire

/-- The runs look alike, and the journal of the second accompanies that of the first.  Where it is
    `strict`, the same is known in both of newness. -/
structure Abreast (c : Company) (strict : Prop) (r r' : Run GraphEngine P) : Prop
    extends LooksLike c.tally r r' where
  journal : c.Accompanies r.journal.recent r'.journal.recent
  known : strict → r'.depths = r.depths ∧ r'.lastQuery = r.lastQuery

/-- Runs that look alike are abreast, with nobody who could be called. -/
theorem LooksLike.exists_abreast (h : r.LooksLike i r') : ∃ c : Company, c.tally = i ∧ r.Abreast c False r' :=
  ⟨{ tally := i, isNamed := fun _ => False, before := r.journal.recent, joined := r'.journal.recent }, rfl,
    h, .start, False.elim⟩

namespace Abreast

theorem relax (h : Abreast c strict r r') : Abreast c False r r' :=
  ⟨h.toLooksLike, h.journal, False.elim⟩

theorem record (h : Abreast c strict r r') (e : Entry) : Abreast c strict (r.record e) (r'.record e) := by
  obtain ⟨depths, query, tallies, journal, rfl⟩ := h.seen
  exact ⟨⟨⟨depths, query, tallies, _, rfl⟩, h.tallies, h.inquiry⟩, h.journal.both e, h.known⟩

theorem memory (h : Abreast c strict r r') (m : Memory) :
    Abreast c strict { r with memory := m } { r' with memory := m } := by
  obtain ⟨depths, query, tallies, journal, rfl⟩ := h.seen
  exact ⟨⟨⟨depths, query, tallies, journal, rfl⟩, h.tallies, h.inquiry⟩, h.journal, h.known⟩

/-- What is known after an answer is the same in both runs, whatever was known before. -/
theorem inquired_of_ok (h : Abreast c strict r r') {answer : Bool} {depths : DepthTable}
    {query : Option Query} (asked : r.inquire = .ok (answer, depths, query)) :
    Abreast c True { r with depths := depths, lastQuery := query }
      { r' with depths := depths, lastQuery := query } := by
  have asked' := h.inquiry.trans asked
  obtain ⟨_, _, tallies, journal, rfl⟩ := h.seen
  refine ⟨⟨⟨depths, query, tallies, journal, rfl⟩, h.tallies, ?_⟩, h.journal, fun _ => ⟨rfl, rfl⟩⟩
  rw [inquire_again asked', inquire_again asked]

theorem inquired (h : Abreast c strict r r') : Abreast c strict r.inquired r'.inquired := by
  cases asked : r.inquire with
  | ok result =>
    obtain ⟨answer, depths, query⟩ := result
    have after := h.inquired_of_ok asked
    rw [Run.inquired_of_ok asked, Run.inquired_of_ok (h.inquiry.trans asked)]
    exact ⟨after.toLooksLike, after.journal, fun _ => after.known trivial⟩
  | error f =>
    rw [Run.inquired_of_error asked, Run.inquired_of_error (h.inquiry.trans asked)]
    exact h

theorem reclaim (h : Abreast c strict r r') : Abreast c strict r.reclaim r'.reclaim := by
  have given := h.memory r.memory.reclaim
  obtain ⟨depths, query, tallies, journal, rfl⟩ := h.seen
  simp only [Run.reclaim]
  split
  · exact given.record _
  · exact given

/-- Both runs measure the same memory. -/
theorem availableMemory (h : Abreast c strict r r') :
    r'.availableMemory.1 = r.availableMemory.1 ∧
      Abreast c strict r.availableMemory.2 r'.availableMemory.2 := by
  have measured := h.memory r.memory.available.2
  obtain ⟨depths, query, tallies, journal, rfl⟩ := h.seen
  exact ⟨rfl, measured⟩

theorem hasMemory (h : Abreast c strict r r') :
    r'.hasMemory.1 = r.hasMemory.1 ∧ Abreast c strict r.hasMemory.2 r'.hasMemory.2 := by
  have bytes : r'.config.minFreeMemory.bytes = r.config.minFreeMemory.bytes := by
    obtain ⟨depths, query, tallies, journal, rfl⟩ := h.seen
    rfl
  obtain ⟨same, measured⟩ := h.availableMemory
  simp only [Run.hasMemory, bytes]
  generalize r.availableMemory = p at same measured ⊢
  generalize r'.availableMemory = q at same measured ⊢
  obtain ⟨_ | amount, after⟩ := p
  all_goals
    obtain ⟨_, after'⟩ := q
    cases same
    dsimp only
  · exact ⟨rfl, measured⟩
  · split
    · obtain ⟨same, again⟩ := (measured.record (.memoryLow amount r.config.minFreeMemory.bytes)).reclaim.availableMemory
      generalize Run.availableMemory (Run.reclaim (Run.record _ after)) = p at same again ⊢
      generalize Run.availableMemory (Run.reclaim (Run.record _ after')) = q at same again ⊢
      obtain ⟨_ | second, after⟩ := p
      all_goals
        obtain ⟨_, after'⟩ := q
        cases same
        exact ⟨rfl, again⟩
    · exact ⟨rfl, measured⟩

theorem modifyTally (h : Abreast c strict r r') {j : Nat} (f : Tally → Tally) :
    Abreast c strict (r.modifyTally j f) (r'.modifyTally j f) := by
  have tallies := h.tallies
  obtain ⟨depths, query, _, journal, rfl⟩ := h.seen
  refine ⟨⟨⟨depths, query, _, journal, rfl⟩, ?_, h.inquiry⟩, h.journal, h.known⟩
  intro k other
  simp only [Run.modifyTally, List.getElem?_modify]
  exact congrArg _ (tallies k other)

/-- The tally that only the second run keeps is not compared. -/
theorem modifyOwn (h : Abreast c strict r r') (f : Tally → Tally) :
    Abreast c strict r (r'.modifyTally c.tally f) := by
  have tallies := h.tallies
  obtain ⟨depths, query, _, journal, rfl⟩ := h.seen
  refine ⟨⟨⟨depths, query, _, journal, rfl⟩, ?_, h.inquiry⟩, h.journal, h.known⟩
  intro k other
  simp only [Run.modifyTally, List.getElem?_modify]
  rw [← tallies k other]
  simp [Ne.symm other]

end Abreast

end Run

/-! ## Requests -/

/-- One thing that an impartial listener does to a run. -/
inductive Request where
  | ask
  | gauge
  | tally (number : Nat) (f : Tally → Tally)
  | note (e : Entry) (isNote : e.isNote = true)
  | backtrack
  | probe
  | terminate
  | ignore (mark : Bool)

namespace Request

variable {P : Type} {c : Company} {strict : Prop} {r r' : Run GraphEngine P} {i : Nat}

/-- The run after a request. -/
def perform : Request → Run GraphEngine P → Run GraphEngine P
  | .ask, r => r.inquired
  | .gauge, r => r.hasMemory.2
  | .tally number f, r => r.modifyTally number f
  | .note e _, r => r.record e
  | .backtrack, r => r.requestBacktrack
  | .probe, r => r.requestProbe
  | .terminate, r => r.terminate
  | .ignore mark, r => r.ignore mark

/-- The run after requests, in order. -/
def performAll (qs : List Request) (r : Run GraphEngine P) : Run GraphEngine P :=
  qs.foldl (fun r q => q.perform r) r

theorem performAll_append (ps qs : List Request) (r : Run GraphEngine P) :
    performAll (ps ++ qs) r = performAll qs (performAll ps r) :=
  List.foldl_append

theorem abreast_perform (q : Request) (h : r.Abreast c strict r') :
    (q.perform r).Abreast c strict (q.perform r') := by
  cases q with
  | ask => exact h.inquired
  | gauge => exact h.hasMemory.2
  | tally number f => exact h.modifyTally f
  | note e _ => exact h.record e
  | backtrack | probe | ignore mark =>
    obtain ⟨depths, query, tallies, journal, rfl⟩ := h.seen
    exact ⟨⟨⟨depths, query, tallies, journal, rfl⟩, h.tallies, h.inquiry⟩, h.journal, h.known⟩
  | terminate =>
    obtain ⟨depths, query, tallies, journal, rfl⟩ := h.seen
    exact ⟨⟨⟨depths, query, tallies, _, rfl⟩, h.tallies, h.inquiry⟩, h.journal.both _, h.known⟩

theorem abreast_performAll (qs : List Request) (h : r.Abreast c strict r') :
    (performAll qs r).Abreast c strict (performAll qs r') := by
  induction qs generalizing r r' with
  | nil => exact h
  | cons q qs ih => exact ih (abreast_perform q h)

/-- Runs that look alike do so after the same requests. -/
theorem looksLike_performAll (qs : List Request) (h : r.LooksLike i r') :
    (performAll qs r).LooksLike i (performAll qs r') := by
  obtain ⟨c, rfl, abreast⟩ := h.exists_abreast
  exact (abreast_performAll qs abreast).toLooksLike

/-- To make requests is to make calls. -/
theorem calls_performAll (qs : List Request) (r : Run GraphEngine P) :
    r.Calls (fun _ => True) (performAll qs r) := by
  have one (q : Request) (r : Run GraphEngine P) : r.Calls (fun _ => True) (q.perform r) := by
    cases q with
    | ask =>
      cases asked : r.inquire with
      | ok result =>
        obtain ⟨answer, depths, query⟩ := result
        rw [perform, Run.inquired_of_ok asked]
        exact .single (.ask (Run.isNew_of_inquire asked))
      | error f =>
        rw [perform, Run.inquired_of_error asked]
        exact .refl
    | gauge => exact .single (.gauge r)
    | tally number f => exact .single (.tally f r trivial)
    | note e isNote => exact .single (.note r isNote)
    | backtrack => exact .single (.requestBacktrack r)
    | probe => exact .single (.requestProbe r)
    | terminate => exact .single (.terminate r)
    | ignore mark => exact .single (.ignore mark r)
  induction qs generalizing r with
  | nil => exact .refl
  | cons q qs ih => exact (one q r).trans (ih _)

end Request

/-- Whether the current violation ends the search, and what is requested if it does not. -/
def Run.settlement {P : Type} (r : Run GraphEngine P) : Bool × List Request :=
  if r.atViolation then if r.done then (true, []) else (false, [.backtrack]) else (false, [])

theorem Run.endsAtViolation_eq {P : Type} (r : Run GraphEngine P) :
    r.endsAtViolation = (r.settlement.1, Request.performAll r.settlement.2 r) := by
  unfold endsAtViolation settlement
  split_ifs <;> rfl

theorem Run.LooksLike.settlement {P : Type} {i : Nat} {r r' : Run GraphEngine P} (h : r.LooksLike i r') :
    r'.settlement = r.settlement := by
  obtain ⟨depths, query, tallies, journal, rfl⟩ := h.seen
  rfl

/-! ## Impartial operations -/

section Impartial

variable {P : Type} {α β : Type} {i : Nat}

/-- The result of an operation with this verdict. -/
def resultOf {σ : Type} (verdict : Except Failure α) (s : σ) : EStateM.Result Failure σ α :=
  match verdict with
  | .ok a => .ok a s
  | .error f => .error f s

/-- On runs that look alike, the operation makes the same requests and comes to the same verdict. -/
def RunM.Impartial (i : Nat) (x : RunM GraphEngine P α) : Prop :=
  ∀ r r', r.LooksLike i r' → ∃ requests verdict,
    x r = resultOf verdict (Request.performAll requests r) ∧
      x r' = resultOf verdict (Request.performAll requests r')

namespace RunM.Impartial

variable {x : RunM GraphEngine P α} {f : α → RunM GraphEngine P β}

theorem pure (a : α) : Impartial i (Pure.pure a : RunM GraphEngine P α) :=
  fun _ _ _ => ⟨[], .ok a, rfl, rfl⟩

theorem throw (failure : Failure) : Impartial i (MonadExcept.throw failure : RunM GraphEngine P α) :=
  fun _ _ _ => ⟨[], .error failure, rfl, rfl⟩

theorem bind (hx : Impartial i x) (hf : ∀ a, Impartial i (f a)) : Impartial i (x >>= f) := by
  intro r r' alike
  obtain ⟨first, verdict, done, done'⟩ := hx r r' alike
  simp only [Bind.bind, EStateM.bind]
  cases verdict with
  | error failure => exact ⟨first, .error failure, by rw [done]; rfl, by rw [done']; rfl⟩
  | ok a =>
    obtain ⟨second, verdict, done₂, done₂'⟩ := hf a _ _ (Request.looksLike_performAll first alike)
    refine ⟨first ++ second, verdict, ?_, ?_⟩
    · rw [done, Request.performAll_append]
      exact done₂
    · rw [done', Request.performAll_append]
      exact done₂'

/-- What is seen of a run may decide what is done to it. -/
theorem of_seen (h : ∀ r r', r.LooksLike i r' → ∃ y, Impartial i y ∧ x r = y r ∧ x r' = y r') :
    Impartial i x := by
  intro r r' alike
  obtain ⟨y, impartial, same, same'⟩ := h r r' alike
  rw [same, same']
  exact impartial r r' alike

theorem request {q : Request} : Impartial i (modify (q.perform (P := P))) :=
  fun _ _ _ => ⟨[q], .ok ⟨⟩, rfl, rfl⟩

theorem isNew : Impartial i (Run.isNew (E := GraphEngine) (P := P)) := by
  intro r r' alike
  cases asked : r.inquire with
  | ok result =>
    obtain ⟨answer, depths, query⟩ := result
    have asked' := alike.inquiry.trans asked
    refine ⟨[.ask], .ok answer, ?_, ?_⟩
    · rw [Run.isNew_of_inquire asked, ← Run.inquired_of_ok asked]
      rfl
    · rw [Run.isNew_of_inquire asked', ← Run.inquired_of_ok asked']
      rfl
  | error f =>
    exact ⟨[], .error f, Run.isNew_of_inquire_error asked,
      Run.isNew_of_inquire_error (alike.inquiry.trans asked)⟩

end RunM.Impartial

/-! ### Statistics -/

theorem Statistics.impartial_update (j : Nat) (event : Event) :
    RunM.Impartial i (Statistics.update (E := GraphEngine) (P := P) j event) := by
  apply RunM.Impartial.bind
  · apply RunM.Impartial.of_seen
    intro r r' alike
    refine ⟨modify (Request.perform (.tally j (count event r.depth))), .request, rfl, ?_⟩
    obtain ⟨depths, query, tallies, journal, rfl⟩ := alike.seen
    rfl
  intro _
  split
  · refine RunM.Impartial.isNew.bind fun isNew => .of_seen fun r r' alike => ?_
    refine ⟨modify (Request.perform (.tally j (countState isNew (Engine.isEnd r.engine)))), .request, rfl, ?_⟩
    obtain ⟨depths, query, tallies, journal, rfl⟩ := alike.seen
    rfl
  · exact .pure _

/-! ### Rules -/

theorem Action.ask_apply (f : Run GraphEngine P → Bool × Run GraphEngine P) (r : Run GraphEngine P) :
    Action.ask f r = .ok (.bool (f r).1) (f r).2 := rfl

theorem Action.impartial_look {f : Run GraphEngine P → Json}
    (visible : ∀ r depths query tallies journal,
      f { r with depths := depths, lastQuery := query, tallies := tallies, journal := journal } = f r) :
    RunM.Impartial i (Action.look f) := by
  apply RunM.Impartial.of_seen
  intro r r' alike
  refine ⟨Pure.pure (f r), .pure _, rfl, ?_⟩
  obtain ⟨depths, query, tallies, journal, rfl⟩ := alike.seen
  show EStateM.Result.ok _ _ = _
  rw [visible]
  rfl

variable [Property P]

theorem Action.impartial_perform {action : Action P} (modest : action.isModest = true) :
    RunM.Impartial i (action.perform (E := GraphEngine)) := by
  cases action with
  | terminate => exact fun r r' _ => ⟨[.terminate], .ok .null, rfl, rfl⟩
  | requestBacktrack => exact fun r r' _ => ⟨[.backtrack], .ok (.bool true), rfl, rfl⟩
  | requestProbe => exact fun r r' _ => ⟨[.probe], .ok .null, rfl, rfl⟩
  | ignore mark => exact fun r r' _ => ⟨[.ignore mark], .ok .null, rfl, rfl⟩
  | isNew | isVisited => exact RunM.Impartial.isNew.bind fun _ => .pure _
  | hasMemory =>
    intro r r' alike
    obtain ⟨c, rfl, abreast⟩ := alike.exists_abreast
    refine ⟨[.gauge], .ok (.bool r.hasMemory.1), rfl, ?_⟩
    rw [← abreast.hasMemory.1]
    rfl
  | endsAtViolation =>
    intro r r' alike
    refine ⟨r.settlement.2, .ok (.bool r.settlement.1), ?_, ?_⟩
    · rw [perform, ask_apply, Run.endsAtViolation_eq]
      rfl
    · rw [perform, ask_apply, Run.endsAtViolation_eq, alike.settlement]
      rfl
  | stateDepth => cases modest
  | _ => first | exact impartial_look fun _ _ _ _ _ => rfl | cases modest

namespace RuleListener

theorem impartial_carryOut (name : String) {deed : Deed P} (modest : deed.isModest = true) :
    RunM.Impartial i (carryOut (E := GraphEngine) name deed) := by
  cases deed with
  | fail reason => exact .throw _
  | act word action =>
    refine (Action.impartial_perform modest).bind fun answer => ?_
    exact RunM.Impartial.request (q := .note (.remarked _) rfl)

omit [Property P] in
theorem concerns_of_looksLike {event : Event} {q : Rule P} {r r' : Run GraphEngine P}
    (h : r.LooksLike i r') : concerns event r' q = concerns event r q := by
  obtain ⟨depths, query, tallies, journal, rfl⟩ := h.seen
  rfl

theorem impartial_follow (name : String) (event : Event) {qs : List (Rule P)}
    (modest : ∀ q ∈ qs, q.deed.isModest = true) {r r' : Run GraphEngine P} (alike : r.LooksLike i r') :
    ∃ requests verdict rules,
      follow name event qs r = { verdict, listener := rules, run := Request.performAll requests r } ∧
        follow name event qs r' = { verdict, listener := rules, run := Request.performAll requests r' } := by
  induction qs generalizing r r' with
  | nil => exact ⟨[], .ok (), [], rfl, rfl⟩
  | cons q qs ih =>
    obtain ⟨first, others⟩ := List.forall_mem_cons.1 modest
    obtain ⟨requests, verdict, rules, passed, passed'⟩ := ih others alike
    -- A rule that applies in one run applies in the other; what follows sees runs that look alike.
    simp only [follow, concerns_of_looksLike alike]
    split
    · split
      · obtain ⟨deeds, carried, done, done'⟩ := impartial_carryOut name first r r' alike
        cases carried with
        | error f =>
          refine ⟨deeds, .error f, { q with matched := q.matched + 1 } :: qs, ?_, ?_⟩
          · rw [done]
            rfl
          · rw [done']
            rfl
        | ok u =>
          obtain ⟨requests, verdict, rules, passed, passed'⟩ :=
            ih others (Request.looksLike_performAll deeds alike)
          refine ⟨deeds ++ requests, verdict, { q with matched := q.matched + 1 } :: rules, ?_, ?_⟩
          · simp only [done, resultOf, passed, Request.performAll_append]
          · simp only [done', resultOf, passed', Request.performAll_append]
      · refine ⟨requests, verdict, { q with matched := q.matched + 1 } :: rules, ?_, ?_⟩
        · rw [passed]
        · rw [passed']
    · refine ⟨requests, verdict, q :: rules, ?_, ?_⟩
      · rw [passed]
      · rw [passed']

/-- The remark on an event, as a request. -/
def opening (l : RuleListener P) (event : Event) (r : Run GraphEngine P) : List Request :=
  (l.remark? event r).toList.map fun j => .note (.remarked j) rfl

theorem hear_eq (event : Event) (l : RuleListener P) (r : Run GraphEngine P) :
    Listener.hear event (l, r) =
      let told := follow l.name event l.rules (Request.performAll (l.opening event r) r)
      resultOf told.verdict ({ l with rules := told.listener }, told.run) := by
  show hear event (l, r) = _
  unfold hear opening
  cases remarked : l.remark? event r with
  | none =>
    simp only [remarked, Option.toList_none, List.map_nil, Request.performAll, List.foldl_nil]
    generalize follow l.name event l.rules r = told
    obtain ⟨verdict, rules, after⟩ := told
    cases verdict <;> rfl
  | some j =>
    simp only [remarked, Option.toList_some, List.map_cons, List.map_nil, Request.performAll,
      List.foldl_cons, List.foldl_nil, Request.perform]
    generalize follow l.name event l.rules (r.record (.remarked j)) = told
    obtain ⟨verdict, rules, after⟩ := told
    cases verdict <;> rfl

end RuleListener

/-! ## Impartial listeners -/

/-- Told of an event on runs that look alike, the allowed listeners do the same: they make the same
    requests, come to the same verdict and end up the same themselves.  One that looks up the recorded
    depth of a state is not impartial, as it can tell whether somebody has asked before. -/
def Listener.Impartial (P : Type) {L : Type} [Listener GraphEngine P L] (i : Nat) (allowed : L → Prop) : Prop :=
  ∀ (event : Event) (l : L) (r r' : Run GraphEngine P), allowed l → r.LooksLike i r' →
    ∃ requests verdict l', allowed l' ∧
      Listener.hear event (l, r) = resultOf verdict (l', Request.performAll requests r) ∧
      Listener.hear event (l, r') = resultOf verdict (l', Request.performAll requests r')

omit [Property P] in
/-- Listeners that go by the event, the state and the depth alone are impartial. -/
theorem Listener.Impartial.of_position {L : Type} [Listener GraphEngine P L] {allowed : L → Prop}
    (requests : Event → L → StateId → Nat → List Request)
    (verdict : Event → L → StateId → Nat → Except Failure Unit) (next : Event → L → StateId → Nat → L)
    (goes : ∀ (event : Event) (l : L) (r : Run GraphEngine P), allowed l →
      allowed (next event l r.engine.current r.depth) ∧
        Listener.hear event (l, r) = resultOf (verdict event l r.engine.current r.depth)
          (next event l r.engine.current r.depth,
            Request.performAll (requests event l r.engine.current r.depth) r)) :
    Listener.Impartial P i allowed := by
  intro event l r r' hl alike
  obtain ⟨hl', heard⟩ := goes event l r hl
  have heard' := (goes event l r' hl).2
  obtain ⟨depths, query, tallies, journal, rfl⟩ := alike.seen
  exact ⟨_, _, _, hl', heard, heard'⟩

theorem RuleListener.impartial (i : Nat) : Listener.Impartial P i (RuleListener.isModest (P := P)) := by
  intro event l r r' modest alike
  have opening : l.opening event r' = l.opening event r := by
    obtain ⟨depths, query, tallies, journal, rfl⟩ := alike.seen
    rfl
  obtain ⟨requests, verdict, rules, told, told'⟩ := impartial_follow l.name event modest
    (Request.looksLike_performAll (l.opening event r) alike)
  have deeds := deeds_follow l.name event l.rules (Request.performAll (l.opening event r) r)
  rw [told] at deeds
  refine ⟨l.opening event r ++ requests, verdict, { l with rules }, isModest_of_deeds modest deeds, ?_, ?_⟩
  · rw [hear_eq, told, Request.performAll_append]
  · rw [hear_eq, opening, told', Request.performAll_append]

omit [Property P] in
theorem Statistics.impartial (i : Nat) : Listener.Impartial P i fun _ : Statistics => True := by
  intro event l r r' _ alike
  obtain ⟨requests, verdict, done, done'⟩ := impartial_update l.tally event r r' alike
  have hear (r : Run GraphEngine P) :
      Listener.hear event (l, r) = Listener.onRun (Statistics.update l.tally event) (l, r) := rfl
  refine ⟨requests, verdict, l, trivial, ?_, ?_⟩
  · rw [hear, Listener.onRun, done]
    cases verdict <;> rfl
  · rw [hear, Listener.onRun, done']
    cases verdict <;> rfl

end Impartial

end Statewalk
