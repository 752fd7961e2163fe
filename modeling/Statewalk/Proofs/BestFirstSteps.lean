import Statewalk.Proofs.DepthFirstSteps

/-! # Iterations of a quiet best-first search

What one iteration does to the strategy and to the run, for any engine: it generates one successor,
queues it if it is new, and returns.  Heuristics may look at all of a run, so that a priority is
known only up to what they may make of memory readings and of the journal.
-/

namespace Statewalk

/-- The heuristic has a priority for every run that is not too deep. -/
def Heuristic.Total (H E P : Type) [Heuristic H E P] : Prop :=
  ∀ (r : Run E P) (h : H), r.depth < 2 ^ 63 → ∃ i, (Heuristic.priority r h).1 = .ok i

/-- The heuristic may give the priority to the run and become the second heuristic thereby. -/
def Heuristic.Ranks {H E P : Type} [Heuristic H E P] (h : H) (r : Run E P) (i : Int) (h' : H) : Prop :=
  ∃ m j, Heuristic.priority { r with memory := m, journal := j } h = (.ok i, h')

namespace BestFirst

variable {H E P L : Type} [Engine E]

/-- The expedition has the strategy, and its search mirrors the run. -/
def Tracks (c : Config) (ls : List L) (x : Expedition H E P L) (p : BestFirst H E × Run E P) : Prop :=
  x.strategy = p.1 ∧ Mirrors c ls x.search p.2

/-- The strategy after a state was queued. -/
def enqueued (priority : Int) (heuristic : H) (queued : Queued E) (b : BestFirst H E) :
    BestFirst H E :=
  { heuristic
    frontier := b.frontier.insert { priority, number := b.offered } queued
    offered := b.offered + 1
    stored := b.stored + 1 }

variable {c : Config} {ls : List L} {A : Audience E P} {b : BestFirst H E} {r : Run E P}

/-! ## Operations on the search -/

section Lifting

variable {α : Type} {x : SearchM E P L α} {a : α} {q : Run E P}

theorem yields_onSearch (h : Yields (Mirrors c ls) x r a q) :
    Yields (Tracks c ls) (onSearch (H := H) x) (b, r) a (b, q) := by
  rintro ⟨strategy, search⟩ ⟨rfl, mirrors⟩
  obtain ⟨t, ht, mirrors'⟩ := h search mirrors
  refine ⟨⟨strategy, t⟩, ?_, rfl, mirrors'⟩
  show onSearch x _ = _
  simp only [onSearch, ht]

theorem yields_look {f : Run E P → α} (h : ∀ m j, f { r with memory := m, journal := j } = f r) :
    Yields (Tracks c ls) (look (H := H) f) (b, r) (f r) (b, r) := by
  rintro ⟨strategy, search⟩ ⟨rfl, mirrors⟩
  obtain ⟨m, j, eq, -⟩ := mirrors.run_eq
  refine ⟨⟨strategy, search⟩, ?_, rfl, mirrors⟩
  rw [look, eq, h]

/-- A change of the strategy that does not look at the search. -/
theorem yields_modify {f : Expedition H E P L → Expedition H E P L} (b' : BestFirst H E)
    (h : ∀ search, f ⟨b, search⟩ = ⟨b', search⟩) :
    Yields (Tracks c ls) (modify f) (b, r) ⟨⟩ (b', r) := by
  rintro ⟨strategy, search⟩ ⟨rfl, mirrors⟩
  refine ⟨⟨b', search⟩, ?_, rfl, mirrors⟩
  rw [← h search]
  rfl

end Lifting

/-! ## Queueing -/

section Queueing

variable [Heuristic H E P] {snapshot : Snapshot (Engine.Saved E)}

theorem attains_offer (saved : Engine.snapshot? r.engine = some snapshot)
    (total : Heuristic.Total H E P) (shallow : r.depth < 2 ^ 63) (roomy : r.config.queueLimit = none) :
    Attains (Tracks c ls) (offerCurrent (H := H)) (b, r) fun stored q => stored = true ∧
      ∃ i h, Heuristic.Ranks b.heuristic r i h ∧
        q = (b.enqueued i h { snapshot, state := Engine.stateId r.engine }, r) := by
  rintro ⟨strategy, search⟩ ⟨rfl, mirrors⟩
  obtain ⟨m, j, eq, -⟩ := mirrors.run_eq
  obtain ⟨i, ranked⟩ := total { r with memory := m, journal := j } strategy.heuristic shallow
  have priority : Heuristic.priority search.run strategy.heuristic =
      (.ok i, (Heuristic.priority search.run strategy.heuristic).2) := by
    rw [eq]
    exact Prod.ext ranked rfl
  have saved' : Engine.snapshot? search.run.engine = some snapshot := by rw [eq]; exact saved
  have state : Engine.stateId search.run.engine = Engine.stateId r.engine := by rw [eq]
  have roomy' : search.run.config.queueLimit = none := by rw [eq]; exact roomy
  have offer (key : Key) (queued : Queued E) :
      strategy.frontier.offer? search.run.config.queueLimit key queued =
        some (strategy.frontier.insert key queued) := by
    rw [roomy']
    rfl
  generalize (Heuristic.priority search.run strategy.heuristic).2 = h at priority
  let after := strategy.enqueued i h { snapshot, state := Engine.stateId r.engine }
  refine ⟨true, ⟨after, search⟩, (after, r), ?_, ⟨rfl, mirrors⟩, rfl, i, h,
    ⟨m, j, by rw [← eq, priority]⟩, rfl⟩
  simp only [offerCurrent, EStateM.get_bind_apply, saved',
    priority, offer, state]
  rfl

variable [Listener E P L] (hears : A.Hears c ls)

include hears

theorem attains_store (saved : Engine.snapshot? r.engine = some snapshot)
    (total : Heuristic.Total H E P) (shallow : r.depth < 2 ^ 63) (roomy : r.config.queueLimit = none)
    (recalls : r.Recalls) :
    Attains (Tracks c ls) (store (H := H)) (b, r) fun _ q =>
      ∃ i h, Heuristic.Ranks b.heuristic r i h ∧
        q = (b.enqueued i h { snapshot, state := Engine.stateId r.engine }, r.said A .stateStored) := by
  refine (attains_offer saved total shallow roomy).bind ?_
  rintro stored _ ⟨rfl, i, h, ranks, rfl⟩
  exact (yields_onSearch (Search.yields_announce hears recalls .stateStored)).attains ⟨i, h, ranks, rfl⟩

theorem attains_storeWithinLimit (saved : Engine.snapshot? r.engine = some snapshot)
    (total : Heuristic.Total H E P) (shallow : r.depth < 2 ^ 63) (roomy : r.config.queueLimit = none)
    (recalls : r.Recalls) :
    Attains (Tracks c ls) (storeWithinLimit (H := H)) (b, r) fun _ q =>
      ∃ i h, Heuristic.Ranks b.heuristic r i h ∧
        q = (b.enqueued i h { snapshot, state := Engine.stateId r.engine }, r.said A .stateStored) := by
  refine Attains.get fun s tracks => ?_
  have notFull : isFull s = false := by
    obtain ⟨m, j, eq, -⟩ := tracks.2.run_eq
    rw [isFull, eq, show ({ r with memory := m, journal := j } : Run E P).config.queueLimit = none
      from roomy]
    rfl
  rw [notFull]
  exact attains_store hears saved total shallow roomy recalls

end Queueing

/-! ## Successors -/

section Receive

variable [Checkable E P] [Listener E P L] [Heuristic H E P] (hears : A.Hears c ls)
  (matching : r.matching = true) (recalls : r.Recalls)

/-- A state that ends here, or that is ignored, is not queued. -/
theorem yields_receive_passing (unviolated : r.atViolation = false)
    (passing : (Engine.isEnd r.engine || Engine.isIgnored r.engine) = true) :
    Yields (Tracks c ls) (receive (H := H) (L := L)) (b, r) false (b, r) := by
  refine (yields_look fun _ _ => rfl).bind ?_
  rw [unviolated]
  refine (yields_look (f := fun r : Run E P => r.engine) fun _ _ => rfl).bind ?_
  simp only [passing]
  exact .pure _ _

include matching recalls

/-- A known state is not queued. -/
theorem yields_receive_known (unviolated : r.atViolation = false)
    (lasting : (Engine.isEnd r.engine || Engine.isIgnored r.engine) = false)
    (plain : r.config.matchByMinDepth = false) (merging : r.config.pathSensitive = false)
    (known : Engine.isNew r.engine = false) :
    Yields (Tracks c ls) (receive (H := H) (L := L)) (b, r) false (b, r.judged false r.depths) := by
  refine (yields_look fun _ _ => rfl).bind ?_
  rw [unviolated]
  refine (yields_look (f := fun r : Run E P => r.engine) fun _ _ => rfl).bind ?_
  simp only [lasting]
  have judge := Run.judge_of_plain plain
  rw [known] at judge
  have consider : Yields (Tracks c ls) (consider (H := H) (L := L)) (b, r) ()
      (b, r.judged false r.depths) := by
    refine (yields_onSearch (Search.yields_isNew matching recalls judge)).bind ?_
    refine (yields_look fun _ _ => rfl).bind ?_
    refine (yields_look fun _ _ => rfl).bind ?_
    refine (yields_look (f := fun r : Run E P => r.config.pathSensitive) fun _ _ => rfl).bind ?_
    rw [show (r.judged false r.depths).config.pathSensitive = false from merging]
    exact .pure _ _
  exact consider.bind (.pure _ _)

include hears

/-- A new state is queued. -/
theorem attains_receive_new {snapshot : Snapshot (Engine.Saved E)} (unviolated : r.atViolation = false)
    (lasting : (Engine.isEnd r.engine || Engine.isIgnored r.engine) = false) (config : r.config = c)
    (plain : c.matchByMinDepth = false) (roomy : c.queueLimit = none)
    (below : r.depth < c.depthLimit) (isNew : Engine.isNew r.engine = true)
    (saved : Engine.snapshot? r.engine = some snapshot) (total : Heuristic.Total H E P)
    (shallow : r.depth < 2 ^ 63) :
    Attains (Tracks c ls) (receive (H := H)) (b, r) fun ends q => ends = false ∧
      ∃ i h, Heuristic.Ranks b.heuristic (r.judged true r.depths) i h ∧
        q = (b.enqueued i h { snapshot, state := Engine.stateId r.engine },
          (r.judged true r.depths).said A .stateStored) := by
  refine (yields_look fun _ _ => rfl).bind_attains ?_
  rw [unviolated]
  refine (yields_look (f := fun r : Run E P => r.engine) fun _ _ => rfl).bind_attains ?_
  simp only [lasting]
  have plain' : r.config.matchByMinDepth = false := config ▸ plain
  have judge := Run.judge_of_plain plain'
  have recalls' := Run.recalls_asked plain' recalls
  rw [isNew] at judge recalls'
  have consider : Attains (Tracks c ls) (consider (H := H)) (b, r) fun _ q =>
      ∃ i h, Heuristic.Ranks b.heuristic (r.judged true r.depths) i h ∧
        q = (b.enqueued i h { snapshot, state := Engine.stateId r.engine },
          (r.judged true r.depths).said A .stateStored) := by
    refine (yields_onSearch (Search.yields_isNew matching recalls judge)).bind_attains ?_
    refine (yields_look fun _ _ => rfl).bind_attains ?_
    refine (yields_look fun _ _ => rfl).bind_attains ?_
    have inside : (true && decide ((r.judged true r.depths).config.depthLimit ≤
        (r.judged true r.depths).depth)) = false := by
      rw [Bool.true_and, decide_eq_false_iff_not, Nat.not_le]
      exact config ▸ below
    simp only [inside]
    exact attains_storeWithinLimit (r := r.judged true r.depths) hears saved total shallow
      (config ▸ roomy) recalls'
  refine consider.bind ?_
  rintro _ _ ⟨i, h, ranks, rfl⟩
  exact (Yields.pure _ _).attains ⟨rfl, i, h, ranks, rfl⟩

/-- A violation that ends the search is announced. -/
theorem yields_receive_violated (violated : r.atViolation = true) (done : r.done = true)
    (config : r.config = c) (plain : c.matchByMinDepth = false)
    (single : c.continueOnViolation = false) :
    Yields (Tracks c ls) (receive (H := H)) (b, r) true
      (b, (r.judged (Engine.isNew r.engine) r.depths).said A .propertyViolated) := by
  refine (yields_look fun _ _ => rfl).bind ?_
  rw [violated]
  have plain' : r.config.matchByMinDepth = false := config ▸ plain
  let judged := r.judged (Engine.isNew r.engine) r.depths
  have recalls' : judged.Recalls := Run.recalls_asked plain' recalls
  refine (yields_onSearch (Search.yields_isNew matching recalls (Run.judge_of_plain plain'))).bind ?_
  refine (yields_onSearch (yields_announceViolation (r := judged) hears recalls'
    (show r.config.continueOnViolation = false from config ▸ single))).bind ?_
  refine (yields_onSearch (yields_endsAtViolation (r := judged.said A .propertyViolated) violated
    done)).bind ?_
  exact .pure _ _

end Receive

section Generate

variable [Checkable E P] [Listener E P L] [Heuristic H E P] {ps : List (Watched P)}
  {bad : StateId → Bool} (hears : A.Hears c ls)

include hears

omit [Checkable E P] [Heuristic H E P] in
theorem yields_leave (moved : (Engine.backtrack r.engine).1 = true) (depth : r.depth ≠ 0) :
    Yields (Tracks c ls) (leave (H := H)) (b, r) (.again ()) (b, r.retreated A) := by
  refine (yields_onSearch Search.yields_hasMemory).bind ?_
  refine (yields_onSearch Search.yields_backtrack).bind ?_
  rw [moved]
  refine (yields_onSearch (Search.yields_ascend (r := r.forgetQuery.stepBack.2) depth)).bind ?_
  refine (yields_onSearch (Search.yields_announce hears (Run.recalls_of_none rfl)
    .stateBacktracked)).bind ?_
  exact .pure _ _

variable (guards : Search.Guards E ps bad) (properties : r.properties = ps)
  (unprobed : r.probeRequested = false)

include guards properties unprobed

theorem yields_generate_halted (stuck : (Engine.forward r.engine).1 = false)
    (good : bad (Engine.stateId (Engine.forward r.engine).2) = false) :
    Yields (Tracks c ls) (generate (H := H) ()) (b, r) (.stop none) (b, r.halted A) := by
  refine (yields_onSearch (Search.yields_pollProbe unprobed)).bind ?_
  refine (yields_onSearch (Search.yields_forward guards properties good)).bind ?_
  rw [stuck]
  refine (yields_onSearch (Search.yields_announce (r := r.stepped) hears (Run.recalls_of_none rfl)
    .stateProcessed)).bind ?_
  exact .pure _ _

/-- What generating a successor without a violation leads to, up to the look at it. -/
theorem attains_generate_of_good
    {post : Turn Unit (Option StopReason) → BestFirst H E × Run E P → Prop}
    (moved : (Engine.forward r.engine).1 = true)
    (good : bad (Engine.stateId (Engine.forward r.engine).2) = false)
    (word : r.depth + 1 < wordLimit) (after : BestFirst H E × Run E P → Prop)
    (received : Attains (Tracks c ls) (receive (H := H)) (b, r.onward A) fun ends q =>
      ends = false ∧ after q)
    (left : ∀ q, after q → Attains (Tracks c ls) leave q post) :
    Attains (Tracks c ls) (generate (H := H) ()) (b, r) post := by
  refine (yields_onSearch (Search.yields_pollProbe unprobed)).bind_attains ?_
  refine (yields_onSearch (Search.yields_forward guards properties good)).bind_attains ?_
  rw [moved]
  refine (yields_onSearch (Search.yields_descend (r := r.stepped) word)).bind_attains ?_
  refine (yields_onSearch (Search.yields_announce hears (Run.recalls_of_none rfl)
    .stateAdvanced)).bind_attains ?_
  refine received.bind ?_
  rintro _ q ⟨rfl, hq⟩
  exact left q hq

theorem attains_generate_caught (config : r.config = c) (matching : r.matching = true)
    (plain : c.matchByMinDepth = false) (single : c.continueOnViolation = false)
    (moved : (Engine.forward r.engine).1 = true)
    (violated : bad (Engine.stateId (Engine.forward r.engine).2) = true)
    (word : r.depth + 1 < wordLimit) :
    Attains (Tracks c ls) (generate (H := H) ()) (b, r) fun turn q =>
      turn = .stop (some .propertyViolated) ∧ ∃ ps' w q', q = (b, q') ∧
        q'.engine = (r.broken ps' w).engine ∧ q'.violations = (r.broken ps' w).violations ∧
        q'.Recalls := by
  obtain ⟨ps', w, forward⟩ := Search.yields_forward_violated guards properties violated
  refine (yields_onSearch (Search.yields_pollProbe unprobed)).bind_attains ?_
  refine (yields_onSearch forward).bind_attains ?_
  rw [moved]
  refine (yields_onSearch (Search.yields_descend (r := r.broken ps' w) word)).bind_attains ?_
  let hit : Run E P := { r.broken ps' w with depth := r.depth + 1 }
  have recalls : hit.Recalls := Run.recalls_of_none rfl
  refine (yields_onSearch (Search.yields_announce (r := hit) hears recalls
    .stateAdvanced)).bind_attains ?_
  have told : (hit.said A .stateAdvanced).Recalls := Search.recalls_said hears config recalls
  have done : (hit.said A .stateAdvanced).done = true := by
    show (r.done || !r.config.continueOnViolation) = true
    rw [config, single]
    exact Bool.or_true _
  refine (yields_receive_violated (r := hit.said A .stateAdvanced) hears matching told rfl done config
    plain single).bind_attains ?_
  refine (Yields.pure _ _).attains ⟨rfl, ps', w, _, rfl, rfl, rfl, ?_⟩
  exact Search.recalls_said hears config (Run.recalls_asked (config ▸ plain) told)

end Generate

/-! ## Expansions -/

/-- What an expansion leads to: something that holds when it is complete, or a reason to stop with
    the postcondition. -/
def Halts {ρ : Type} (complete : ρ → Prop) (post : StopReason → ρ → Prop) :
    Option StopReason → ρ → Prop
  | none, q => complete q
  | some reason, q => post reason q

section Expand

variable [Checkable E P] [Listener E P L] [Heuristic H E P] {budget : Nat}
  {inv : Unit → BestFirst H E × Run E P → Prop} {measure : Unit → BestFirst H E × Run E P → Nat}
  {bound : Nat} {post : StopReason → BestFirst H E × Run E P → Prop}

theorem attains_expandBest_empty (empty : b.frontier.entries = []) (hpost : post .exhausted (b, r)) :
    Attains (Tracks c ls) (expandBest (H := H) budget ()) (b, r)
      (Turn.Leads inv measure bound post) := by
  refine Attains.get fun s tracks => ?_
  have pop : s.strategy.frontier.pop? = none := by
    rw [tracks.1, Frontier.pop?, empty]
  simp only [pop]
  exact (Yields.pure _ _).attains hpost

/-- The best state is taken out of the queue and expanded. -/
theorem attains_expandBest (hears : A.Hears c ls) {key : Key} {best : Queued E}
    {others : List (Key × Queued E)} (entries : b.frontier.entries = (key, best) :: others)
    (accepted : (Engine.restore best.snapshot r.engine).1 = true)
    (h : Attains (Tracks c ls) (expand (H := H) budget)
      ({ b with frontier := { entries := others } }, r.resumed A best.snapshot)
      (Halts (fun q => inv () q ∧ measure () q < bound) post)) :
    Attains (Tracks c ls) (expandBest budget ()) (b, r) (Turn.Leads inv measure bound post) := by
  refine Attains.get fun s tracks => ?_
  have pop : s.strategy.frontier.pop? = some (best, { entries := others }) := by
    rw [tracks.1, Frontier.pop?, entries]
  simp only [pop]
  let popped : BestFirst H E := { b with frontier := { entries := others } }
  have taken : Tracks c ls ({ s with strategy := { s.strategy with frontier := { entries := others } } })
      (popped, r) :=
    ⟨by rw [tracks.1], tracks.2⟩
  refine (Yields.set taken).bind_attains ?_
  refine (yields_onSearch (b := popped) (Search.yields_record rfl)).bind_attains ?_
  refine (yields_onSearch (Search.yields_restore accepted)).bind_attains ?_
  refine (yields_onSearch (Search.yields_announce hears (Run.recalls_of_none rfl)
    .stateRestored)).bind_attains ?_
  refine h.bind ?_
  rintro (_ | reason) q hq
  · exact (Yields.pure _ _).attains hq
  · exact (Yields.pure _ _).attains hq

end Expand

/-! ## Whole runs -/

/-- The strategy when the start is about to be expanded. -/
def started (heuristic : H) : BestFirst H E :=
  { heuristic, offered := 1, stored := 1 }

section Course

variable [Checkable E P] [Listener E P L] [Heuristic H E P]
  {busy : Nat → BestFirst H E × Run E P → Prop} {rested : BestFirst H E × Run E P → Prop}
  {successors potential : BestFirst H E × Run E P → Nat} {most bound budget : Nat}
  {post : StopReason → BestFirst H E × Run E P → Prop} (few : ∀ p, successors p ≤ most)
  (generates : ∀ bound b r, busy bound (b, r) → r.done = false ∧
    Attains (Tracks c ls) (generate ()) (b, r) (Turn.Leads (fun _ => busy bound) (fun _ => successors)
      (successors (b, r)) (Halts (fun q => rested q ∧ potential q < bound) post)))
  (hears : A.Hears c ls) (going : ∀ p, rested p → p.2.done = false)
  (resumes : ∀ b r key best others, rested (b, r) → b.frontier.entries = (key, best) :: others →
    (Engine.restore best.snapshot r.engine).1 = true ∧ busy (potential (b, r))
      ({ b with frontier := { entries := others } }, r.resumed A best.snapshot))
  (ends : ∀ b r, rested (b, r) → b.frontier.entries = [] → post .exhausted (b, r))

include few generates

/-- An expansion generates all successors of its state, or stops. -/
theorem attains_expand (enough : most < budget) {p : BestFirst H E × Run E P} (h : busy bound p) :
    Attains (Tracks c ls) (expand budget) p (Halts (fun q => rested q ∧ potential q < bound) post) := by
  refine Attains.loop (fun _ => busy bound) (fun _ => successors) ?_ ?_ h (Nat.lt_of_le_of_lt (few p) enough)
  · exact fun _ _ p tracks busy => tracks.2.done.trans (generates bound p.1 p.2 busy).1
  · exact fun _ p busy => (generates bound p.1 p.2 busy).2

include hears going resumes ends

/-- Expansions of queued states, each of which leaves less to expand. -/
theorem attains_expansions (enough : most + bound < budget) {p : BestFirst H E × Run E P} (h : rested p)
    (bounded : potential p < bound) : Attains (Tracks c ls)
      (loop (·.search.run.done) .terminated (expandBest budget) budget ()) p post := by
  refine Attains.loop (fun _ => rested) (fun _ => potential) ?_ ?_ h (by omega)
  · exact fun _ _ p tracks rested => tracks.2.done.trans (going p rested)
  · rintro _ ⟨b, r⟩ rested
    -- The search is over when nothing is queued; otherwise the first entry can be restored.
    cases entries : b.frontier.entries with
    | nil => exact attains_expandBest_empty entries (ends b r rested entries)
    | cons entry others =>
      obtain ⟨accepted, busy⟩ := resumes b r entry.1 entry.2 others rested entries
      exact attains_expandBest hears entries accepted (attains_expand few generates (by omega) busy)

variable (busy) (rested) (successors) (potential) (bound) in
/-- A quiet run comes to its end, with the events at its start and end around its expansions. -/
theorem attains_run (matching : r.matching = true) (recalls : r.Recalls) (config : r.config = c)
    (roomy : c.queueLimit = none) (depth : r.depth = Engine.pathLength r.engine)
    (shallow : r.depth < 2 ^ 63) {snapshot : Snapshot (Engine.Saved E)}
    (saved : Engine.snapshot? r.engine = some snapshot) (total : Heuristic.Total H E P)
    (start : ∀ h, busy bound (started h, (r.said A .searchStarted).said A .stateStored))
    (keeps : ∀ reason q, post reason q → q.2.Recalls) :
    ∃ budget, Attains (Tracks c ls) (run budget) (b, r) fun o q => ∃ reason q',
      post reason q' ∧ o = q'.2.outcome reason ∧ q = (q'.1, q'.2.concluded A) := by
  let budget := most + bound + 1
  refine ⟨budget, ?_⟩
  have same : ({ r with depth := Engine.pathLength r.engine } : Run E P) = r := by rw [← depth]
  refine (yields_onSearch (Search.yields_launch matching _)).bind_attains ?_
  have finished : ∀ reason q, post reason q → Attains (Tracks c ls) (do
      onSearch (H := H) (Search.announce .searchFinished)
      return reason) q fun reason q => ∃ q', post reason q' ∧ q = (q'.1, q'.2.said A .searchFinished) := by
    intro reason q hq
    exact (yields_onSearch (Search.yields_announce hears (keeps reason q hq)
      .searchFinished)).bind_attains ((Yields.pure _ _).attains ⟨q, hq, rfl⟩)
  have explored : Attains (Tracks c ls) (explore (H := H) (E := E) (P := P) (L := L) budget) (b, r)
      fun reason q => ∃ q', post reason q' ∧ q = (q'.1, q'.2.said A .searchFinished) := by
    refine (yields_modify b.clear fun _ => rfl).bind_attains ?_
    have change : Yields (Mirrors c ls) (Search.change (L := L) fun r : Run E P =>
        { r with depth := Engine.pathLength r.engine }) r () r := by
      have changed : Yields (Mirrors c ls) (Search.change (L := L) fun r : Run E P =>
          { r with depth := Engine.pathLength r.engine }) r ()
          { r with depth := Engine.pathLength r.engine } :=
        Search.yields_change (fun _ _ => rfl) rfl rfl rfl rfl
      rwa [same] at changed
    refine (yields_onSearch change).bind_attains ?_
    refine (yields_onSearch (Search.yields_announce hears recalls .searchStarted)).bind_attains ?_
    refine (attains_store (r := r.said A .searchStarted) hears saved total shallow (config ▸ roomy)
      (Search.recalls_said hears config recalls)).bind ?_
    rintro _ _ ⟨i, h, -, rfl⟩
    refine (yields_modify (started h) fun _ => rfl).bind_attains ?_
    refine (attains_expand few generates (by omega) (start h)).bind ?_
    rintro (_ | reason) q hq
    · exact (attains_expansions few generates hears going resumes ends (Nat.lt_succ_self _) hq.1 hq.2).bind
        finished
    · exact finished reason q hq
  refine explored.bind ?_
  rintro reason _ ⟨q', hq', rfl⟩
  exact (yields_onSearch (Search.yields_conclude reason)).attains ⟨reason, q', hq', rfl, rfl⟩

end Course

end BestFirst

end Statewalk
