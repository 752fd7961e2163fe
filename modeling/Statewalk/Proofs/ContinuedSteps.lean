import Statewalk.Property.Forbidden
import Statewalk.Proofs.BestFirstSteps

/-! # Violations that do not end a quiet search

What a quiet search for forbidden states does about a violation when it is told to go on: the
violation is recorded with copies of what it rests on, announced, and forgotten by the property, and
the state is left by stepping back.  A depth-first search steps back in its next iteration, on the
request that the violation left behind; a best-first search drops the request and steps back anyway.
-/

namespace Statewalk

namespace ForbiddenStates

/-- The property as it is watched when no other is. -/
def alone (F : List StateId) : Watched ForbiddenStates :=
  { key := 0, property := { states := F } }

/-- The same when a state was entered that is forbidden. -/
def struck (F : List StateId) (s : StateId) : Watched ForbiddenStates :=
  { key := 0, property := { states := F, hit := some s } }

variable {E : Type} [Engine E] {F : List StateId} {s : StateId} {r : Run E ForbiddenStates}

theorem checkUntil_of_mem (state : Engine.stateId r.engine = s) (forbidden : s ∈ F) :
    Run.checkUntil r [alone F] = ([struck F s], some (struck F s)) := by
  simp [Run.checkUntil, Checkable.check, checkState, alone, struck, state, forbidden]

end ForbiddenStates

open ForbiddenStates (alone struck)

namespace Run

variable {E : Type} [Engine E]

/-- The run after a step into a forbidden state. -/
def struck (A : Audience E ForbiddenStates) (F : List StateId) (s : StateId)
    (r : Run E ForbiddenStates) : Run E ForbiddenStates :=
  ({ r.broken [ForbiddenStates.struck F s] (ForbiddenStates.struck F s) with depth := r.depth + 1 } :
    Run E ForbiddenStates).said A .stateAdvanced

/-- The run after its violation was announced and the properties forgot it. -/
def reported {P : Type} [Property P] (A : Audience E P) (r : Run E P) : Run E P :=
  (r.said A .propertyViolated).resetProperties

/-- The same after newness was asked for, without a request to step back. -/
def dismissed {P : Type} [Property P] (A : Audience E P) (r : Run E P) : Run E P :=
  { (r.judged (Engine.isNew r.engine) r.depths).reported A with backtrackRequested := false }

end Run

/-! ## Single operations -/

section Operations

variable {E P L : Type} [Engine E] [Property P] {c : Config} {ls : List L} {A : Audience E P} {r : Run E P}

theorem yields_announceViolation_continued [Listener E P L] (hears : A.Hears c ls) (recalls : r.Recalls)
    (continues : r.config.continueOnViolation = true) :
    Yields (Mirrors c ls) (Search.announceViolation (E := E) (P := P) (L := L)) r () (r.reported A) := by
  refine (Search.yields_announce hears recalls _).bind ?_
  refine (Search.yields_look fun _ _ => rfl).bind ?_
  rw [show (r.said A .propertyViolated).config.continueOnViolation = true from continues]
  exact Search.yields_change (fun _ _ => rfl) rfl rfl rfl rfl

omit [Engine E] [Property P] in
theorem yields_endsAtViolation_continued (violated : r.atViolation = true) (notDone : r.done = false) :
    Yields (Mirrors c ls) (Search.update (L := L) Run.endsAtViolation) r false r.requestBacktrack := by
  rintro s ⟨config, matching, unprobed, m, j, rfl, unlimited, told⟩
  refine ⟨_, ?_, ⟨config, matching, unprobed, m, j, rfl, unlimited, told⟩⟩
  simp [Run.endsAtViolation, violated, notDone, Run.requestBacktrack]

end Operations

section Forward

variable {E L : Type} [Engine E] {c : Config} {ls : List L} {F : List StateId} {s : StateId}
  {r : Run E ForbiddenStates}

theorem yields_forward_struck (properties : r.properties = [alone F])
    (state : Engine.stateId (Engine.forward r.engine).2 = s) (forbidden : s ∈ F) :
    Yields (Mirrors c ls) (Search.forward (E := E) (P := ForbiddenStates) (L := L)) r
      (Engine.forward r.engine).1 (r.broken [struck F s] (struck F s)) := by
  refine Search.yields_forward_checked _ (some (struck F s)) fun r' same => ?_
  rw [properties]
  exact ForbiddenStates.checkUntil_of_mem (same.trans state) forbidden

end Forward

variable {E L : Type} [Engine E] [Listener E ForbiddenStates L] {c : Config} {ls : List L}
  {A : Audience E ForbiddenStates} {F : List StateId} {s : StateId} {r : Run E ForbiddenStates}

/-! ## Depth-first search -/

namespace DepthFirst

variable {limit : Bool}

/-- A step into a forbidden state leaves a request to step back. -/
theorem attains_advance_struck (hears : A.Hears c ls) (config : r.config = c)
    (continues : c.continueOnViolation = true) (notDone : r.done = false)
    (properties : r.properties = [alone F]) (moved : (Engine.forward r.engine).1 = true)
    (state : Engine.stateId (Engine.forward r.engine).2 = s) (forbidden : s ∈ F)
    (word : r.depth + 1 < wordLimit) (below : r.depth + 1 < c.depthLimit) :
    Attains (Mirrors c ls) (advance limit) r fun turn q =>
      turn = .again limit ∧ q = ((r.struck A F s).reported A).requestBacktrack := by
  refine (yields_forward_struck properties state forbidden).bind_attains ?_
  rw [moved]
  let hit : Run E ForbiddenStates :=
    { r.broken [struck F s] (struck F s) with depth := r.depth + 1 }
  have recalls : hit.Recalls := Run.recalls_of_none rfl
  refine (Search.yields_descend (r := r.broken [struck F s] (struck F s)) word).bind_attains ?_
  refine (Search.yields_announce (r := hit) hears recalls .stateAdvanced).bind_attains ?_
  have settle : Yields (Mirrors c ls) (Search.settleViolation (E := E) (P := ForbiddenStates) (L := L))
      (r.struck A F s) false ((r.struck A F s).reported A).requestBacktrack := by
    refine (Search.yields_look fun _ _ => rfl).bind ?_
    rw [show (r.struck A F s).atViolation = true from rfl]
    refine (yields_announceViolation_continued hears (Search.recalls_said (r := hit) hears config recalls)
      (show r.config.continueOnViolation = true from config ▸ continues)).bind ?_
    refine yields_endsAtViolation_continued rfl ?_
    show (r.done || !r.config.continueOnViolation) = false
    rw [config, continues, notDone]
    rfl
  exact settle.bind_attains ((yields_checkLimits
    (r := ((r.struck A F s).reported A).requestBacktrack) config below).attains ⟨rfl, rfl⟩)

end DepthFirst

/-! ## Best-first search -/

namespace BestFirst

variable {H : Type} [Heuristic H E ForbiddenStates] {b : BestFirst H E}

theorem yields_receive_struck (hears : A.Hears c ls) (matching : r.matching = true) (recalls : r.Recalls)
    (config : r.config = c) (continues : c.continueOnViolation = true) (plain : c.matchByMinDepth = false)
    (violated : r.atViolation = true) (notDone : r.done = false) :
    Yields (Tracks c ls) (receive (H := H)) (b, r) false (b, r.dismissed A) := by
  refine (yields_look fun _ _ => rfl).bind ?_
  rw [violated]
  have plain' : r.config.matchByMinDepth = false := config ▸ plain
  let judged := r.judged (Engine.isNew r.engine) r.depths
  refine (yields_onSearch (Search.yields_isNew matching recalls (Run.judge_of_plain plain'))).bind ?_
  refine (yields_onSearch (yields_announceViolation_continued (r := judged) hears
    (Run.recalls_asked plain' recalls)
    (show r.config.continueOnViolation = true from config ▸ continues))).bind ?_
  refine (yields_onSearch (yields_endsAtViolation_continued (r := judged.reported A) violated
    notDone)).bind ?_
  refine (yields_onSearch (Search.yields_takeBacktrackRequest
    (r := (judged.reported A).requestBacktrack))).bind ?_
  exact .pure _ _

/-- A successor that is forbidden is announced and left; the request to step back is dropped. -/
theorem attains_generate_struck (hears : A.Hears c ls) (config : r.config = c)
    (continues : c.continueOnViolation = true) (plain : c.matchByMinDepth = false)
    (matching : r.matching = true) (notDone : r.done = false) (unprobed : r.probeRequested = false)
    (properties : r.properties = [alone F]) (moved : (Engine.forward r.engine).1 = true)
    (state : Engine.stateId (Engine.forward r.engine).2 = s) (forbidden : s ∈ F)
    (word : r.depth + 1 < wordLimit)
    (back : (Engine.backtrack (Engine.forward r.engine).2).1 = true) :
    Attains (Tracks c ls) (generate (H := H) ()) (b, r) fun turn q =>
      turn = .again () ∧ q = (b, ((r.struck A F s).dismissed A).retreated A) := by
  refine (yields_onSearch (Search.yields_pollProbe unprobed)).bind_attains ?_
  refine (yields_onSearch (yields_forward_struck properties state forbidden)).bind_attains ?_
  rw [moved]
  let hit : Run E ForbiddenStates :=
    { r.broken [struck F s] (struck F s) with depth := r.depth + 1 }
  have recalls : hit.Recalls := Run.recalls_of_none rfl
  refine (yields_onSearch (Search.yields_descend (r := r.broken [struck F s] (struck F s))
    word)).bind_attains ?_
  refine (yields_onSearch (Search.yields_announce (r := hit) hears recalls
    .stateAdvanced)).bind_attains ?_
  have notDone' : (r.struck A F s).done = false := by
    show (r.done || !r.config.continueOnViolation) = false
    rw [config, continues, notDone]
    rfl
  refine (yields_receive_struck (r := r.struck A F s) hears matching
    (Search.recalls_said (r := hit) hears config recalls) config continues plain rfl
    notDone').bind_attains ?_
  exact (yields_leave (r := (r.struck A F s).dismissed A) hears back (Nat.succ_ne_zero _)).attains
    ⟨rfl, rfl⟩

end BestFirst

end Statewalk
