import Statewalk.Proofs.QuietRuns

/-! # Iterations of a quiet depth-first search

What one iteration does to the run, for any engine: it judges the current state, steps back if the
state is to be left, and tries to go on.
-/

namespace Statewalk

namespace Run

variable {E P : Type} [Engine E]

/-- The run after a step into a state where a property fails, when that ends the search. -/
def caught [Property P] (A : Audience E P) (ps : List (Watched P)) (w : Watched P) (r : Run E P) :
    Run E P :=
  (({ r.broken ps w with depth := r.depth + 1 } : Run E P).said A .stateAdvanced).said A
    .propertyViolated

/-- The run after its strategy came to an end. -/
def concluded (A : Audience E P) (r : Run E P) : Run E P :=
  { r.said A .searchFinished with done := true }

/-- The outcome of a run that ends now. -/
def outcome (reason : StopReason) (r : Run E P) : Outcome :=
  { reason, depth := r.depth, errors := r.violations.length, lastConstraint := r.lastConstraint }

end Run

section Violations

variable {E P L : Type} [Engine E] [Checkable E P] [Listener E P L] {c : Config} {ls : List L}
  {A : Audience E P} {r : Run E P}

theorem yields_settleViolation_of_none (h : r.atViolation = false) :
    Yields (Mirrors c ls) (Search.settleViolation (E := E) (P := P) (L := L)) r false r := by
  refine (Search.yields_look fun _ _ => rfl).bind ?_
  rw [h]
  exact .pure false r

theorem yields_announceViolation (hears : A.Hears c ls) (recalls : r.Recalls)
    (single : r.config.continueOnViolation = false) :
    Yields (Mirrors c ls) (Search.announceViolation (E := E) (P := P) (L := L)) r ()
      (r.said A .propertyViolated) := by
  refine (Search.yields_announce hears recalls _).bind ?_
  refine (Search.yields_look fun _ _ => rfl).bind ?_
  rw [show (r.said A .propertyViolated).config.continueOnViolation = false from single]
  exact .pure () _

omit [Engine E] [Checkable E P] [Listener E P L] in
theorem yields_endsAtViolation (violated : r.atViolation = true) (done : r.done = true) :
    Yields (Mirrors c ls) (Search.update (L := L) Run.endsAtViolation) r true r := by
  rintro s ⟨config, matching, unprobed, m, j, rfl, unlimited, told⟩
  refine ⟨_, ?_, ⟨config, matching, unprobed, m, j, rfl, unlimited, told⟩⟩
  simp [Run.endsAtViolation, violated, done]

end Violations

namespace DepthFirst

variable {E P L : Type} [Engine E] [Checkable E P] [Listener E P L] {c : Config} {ls : List L}
  {A : Audience E P} {ps : List (Watched P)} {bad : StateId → Bool} {r : Run E P} {limit : Bool}

/-! ## Going on -/

section Advance

variable (hears : A.Hears c ls) (guards : Search.Guards E ps bad) (config : r.config = c)
  (properties : r.properties = ps)

include hears guards properties

/-- What a step into a state without a violation leads to, up to the look at the limits. -/
theorem advance_of_good {post : Turn Bool StopReason → Run E P → Prop}
    (moved : (Engine.forward r.engine).1 = true)
    (good : bad (Engine.stateId (Engine.forward r.engine).2) = false)
    (word : r.depth + 1 < wordLimit)
    (h : Attains (Mirrors c ls) (checkLimits limit) (r.onward A) post) :
    Attains (Mirrors c ls) (advance limit) r post := by
  refine (Search.yields_forward guards properties good).bind_attains ?_
  rw [moved]
  have recalls : ({ r.stepped with depth := r.depth + 1 } : Run E P).Recalls :=
    Run.recalls_of_none rfl
  refine (Search.yields_descend (r := r.stepped) word).bind_attains ?_
  refine (Search.yields_announce hears recalls .stateAdvanced).bind_attains ?_
  exact (yields_settleViolation_of_none rfl).bind_attains h

omit [Checkable E P] hears guards properties in
/-- A run that is below its limit goes on. -/
theorem yields_checkLimits (config : r.config = c) (below : r.depth < c.depthLimit) :
    Yields (Mirrors c ls) (checkLimits (E := E) (P := P) (L := L) limit) r (.again limit) r := by
  refine (Search.yields_look fun _ _ => rfl).bind ?_
  refine (Search.yields_look fun _ _ => rfl).bind ?_
  rw [config, if_neg (Nat.not_le.2 below)]
  exact Search.yields_hasMemory.bind (.pure _ _)

include config in
theorem yields_advance_onward (moved : (Engine.forward r.engine).1 = true)
    (good : bad (Engine.stateId (Engine.forward r.engine).2) = false)
    (word : r.depth + 1 < wordLimit) (below : r.depth + 1 < c.depthLimit) :
    Attains (Mirrors c ls) (advance limit) r fun turn q =>
      turn = .again limit ∧ q = r.onward A :=
  advance_of_good hears guards properties moved good word
    ((yields_checkLimits (r := r.onward A) config below).attains ⟨rfl, rfl⟩)

include config in
theorem yields_advance_limit (moved : (Engine.forward r.engine).1 = true)
    (good : bad (Engine.stateId (Engine.forward r.engine).2) = false)
    (word : r.depth + 1 < wordLimit) (reached : c.depthLimit ≤ r.depth + 1) :
    Attains (Mirrors c ls) (advance limit) r fun turn q => turn = .again true ∧
      q = (r.onward A).constrained A ("depth limit reached: " ++ toString c.depthLimit) := by
  refine advance_of_good hears guards properties moved good word ?_
  refine (Search.yields_look fun _ _ => rfl).bind_attains ?_
  refine (Search.yields_look fun _ _ => rfl).bind_attains ?_
  rw [show (r.onward A).config = c from config, show (r.onward A).depth = r.depth + 1 from rfl,
    if_pos reached]
  have recalls : (r.onward A).Recalls :=
    Search.recalls_said hears config (Run.recalls_of_none rfl)
  exact (Search.yields_announceConstraint hears recalls _).bind_attains
    ((Yields.pure _ _).attains ⟨rfl, rfl⟩)

theorem yields_advance_halted (stuck : (Engine.forward r.engine).1 = false)
    (good : bad (Engine.stateId (Engine.forward r.engine).2) = false) :
    Attains (Mirrors c ls) (advance limit) r fun turn q =>
      turn = .again limit ∧ q = r.halted A := by
  refine (Search.yields_forward guards properties good).bind_attains ?_
  rw [stuck]
  have recalls : r.stepped.Recalls := Run.recalls_of_none rfl
  exact (Search.yields_announce hears recalls .stateProcessed).bind_attains
    ((Yields.pure _ _).attains ⟨rfl, rfl⟩)

include config in
theorem yields_advance_caught (single : c.continueOnViolation = false)
    (moved : (Engine.forward r.engine).1 = true)
    (violated : bad (Engine.stateId (Engine.forward r.engine).2) = true)
    (word : r.depth + 1 < wordLimit) :
    Attains (Mirrors c ls) (advance limit) r fun turn q =>
      turn = .stop .propertyViolated ∧ ∃ ps' w, q = r.caught A ps' w := by
  obtain ⟨ps', w, forward⟩ := Search.yields_forward_violated guards properties violated
  refine forward.bind_attains ?_
  rw [moved]
  refine (Search.yields_descend (r := r.broken ps' w) word).bind_attains ?_
  let hit : Run E P := { r.broken ps' w with depth := r.depth + 1 }
  have recalls : hit.Recalls := Run.recalls_of_none rfl
  refine (Search.yields_announce (r := hit) hears recalls .stateAdvanced).bind_attains ?_
  have settle : Yields (Mirrors c ls) (Search.settleViolation (E := E) (P := P) (L := L))
      (hit.said A .stateAdvanced) true (r.caught A ps' w) := by
    refine (Search.yields_look fun _ _ => rfl).bind ?_
    rw [show (hit.said A .stateAdvanced).atViolation = true from rfl]
    refine (yields_announceViolation hears (Search.recalls_said (r := hit) hears config recalls)
      (show r.config.continueOnViolation = false from config ▸ single)).bind ?_
    refine yields_endsAtViolation rfl ?_
    show (r.done || !r.config.continueOnViolation) = true
    rw [config, single]
    exact Bool.or_true _
  exact settle.bind_attains ((Yields.pure _ _).attains ⟨rfl, ps', w, rfl⟩)

end Advance

/-! ## Leaving -/

/-- The current state is to be left, given the answer on its newness. -/
def leaves (limit isNew : Bool) (e : E) : Bool :=
  !isNew || Engine.isEnd e || Engine.isIgnored e || limit

omit [Checkable E P] [Listener E P L] in
theorem yields_mustLeave {isNew : Bool} {depths : DepthTable} (matching : r.matching = true)
    (recalls : r.Recalls) (judge : r.judge = .ok (isNew, depths)) :
    Yields (Mirrors c ls) (mustLeave (L := L) limit) r (r.backtrackRequested || leaves limit isNew r.engine)
      { r.judged isNew depths with backtrackRequested := false } := by
  refine (Search.yields_isNew matching recalls judge).bind ?_
  refine Search.yields_takeBacktrackRequest.bind ?_
  refine (Search.yields_look fun _ _ => rfl).bind ?_
  simp only [leaves, ← Bool.or_assoc]
  exact .pure _ _

/-! ## Whole runs -/

/-- A quiet run whose iterations keep an invariant and lower a measure comes to its end, with the events
    at its start and end around it. -/
theorem attains_run (inv : Bool → Run E P → Prop) (measure : Bool → Run E P → Nat)
    {post : StopReason → Run E P → Prop} (hears : A.Hears c ls) (matching : r.matching = true)
    (recalls : r.Recalls) (depth : r.depth = 0) (start : inv false (r.said A .searchStarted))
    (going : ∀ limit q, inv limit q → q.done = false)
    (step : ∀ limit q, inv limit q →
      Attains (Mirrors c ls) (iterate limit) q (Turn.Leads inv measure (measure limit q) post))
    (keeps : ∀ reason q, post reason q → q.Recalls) :
    ∃ budget, Attains (Mirrors c ls) (run budget) r fun o q =>
      ∃ reason q', post reason q' ∧ o = q'.outcome reason ∧ q = q'.concluded A := by
  obtain ⟨budget, looped⟩ : ∃ budget, Attains (Mirrors c ls)
      (loop (·.run.done) .terminated iterate budget false) (r.said A .searchStarted) post :=
    ⟨_, Attains.loop inv measure (fun limit _ q mirrors hq => mirrors.done.trans (going limit q hq)) step
      start (Nat.lt_succ_self _)⟩
  refine ⟨budget, ?_⟩
  refine (Search.yields_launch matching _).bind_attains ?_
  have same : ({ r with depth := 0 } : Run E P) = r := by rw [← depth]
  have explored : Attains (Mirrors c ls) (explore (E := E) (P := P) (L := L) budget) r
      fun reason q => ∃ q', post reason q' ∧ q = q'.said A .searchFinished := by
    refine (Search.yields_change (fun _ _ => rfl) rfl rfl rfl rfl).bind_attains ?_
    rw [same]
    refine (Search.yields_announce hears recalls .searchStarted).bind_attains ?_
    refine looped.bind fun reason q hpost => ?_
    exact (Search.yields_announce hears (keeps reason q hpost) .searchFinished).bind_attains
      ((Yields.pure _ _).attains ⟨q, hpost, rfl⟩)
  refine explored.bind ?_
  rintro reason q ⟨q', hpost, rfl⟩
  exact (Search.yields_conclude reason).attains ⟨reason, q', hpost, rfl, rfl⟩

end DepthFirst

end Statewalk
