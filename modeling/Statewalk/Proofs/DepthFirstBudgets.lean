import Statewalk.Proofs.Attainment
import Statewalk.Proofs.DepthFirstOutline
import Statewalk.Proofs.GraphRuns
import Statewalk.Proofs.Newness

/-! # Budgets of depth-first search

How many iterations a depth-first search over a graph can take, whatever its listeners do.  The search
owes two iterations for every transition that it may still take, one for every state on its path, and
one more while the current state is new.  `Regime` lists what there is to prove of a way to match states
for that to go down with each iteration; a budget above what is owed at the start is never spent.
-/

namespace Statewalk

section Loops

variable {σ α β : Type}

/-- A loop whose iterations lower the index of an invariant, unless they lead out of it for good, does not
    spend a budget above the index without leaving it. -/
theorem Ensures.loop_of_variant_or {isDone : σ → Bool} {ifDone : β}
    {iterate : α → EStateM Failure σ (Turn α β)} {post : β → σ → Prop} {fail : Failure → σ → Prop}
    {out : σ → Prop} (inv : Nat → σ → Prop) (finish : ∀ n s, inv n s → isDone s = true → post ifDone s)
    (step : ∀ n a, Ensures (inv n) (iterate a)
      (fun turn s => onTurn (fun _ s => ∃ m < n, inv m s) post turn s ∨ out s) fail)
    (beyond : ∀ a, Ensures out (iterate a) (fun _ => out) fun _ => out)
    (failed : ∀ f s, out s → fail f s) {n budget : Nat} (enough : n < budget) (a : α) :
    Ensures (inv n) (Statewalk.loop isDone ifDone iterate budget a) (fun b s => post b s ∨ out s) fail := by
  -- Once out, the loop stays out, whatever budget is left.
  have stays (budget : Nat) (a : α) : Ensures out (Statewalk.loop isDone ifDone iterate budget a)
      (fun b s => post b s ∨ out s) fail :=
    ((loop_invariant (fun _ h => h) beyond budget a).imp fun _ _ => .inr).imp_fail failed
  induction budget generalizing n a with
  | zero => omega
  | succ budget ih =>
    intro s hs
    cases hdone : isDone s with
    | true =>
      rw [loop_succ_of_done hdone]
      exact .inl (finish n s hs hdone)
    | false =>
      rw [loop_succ_of_not_done hdone]
      refine (step n a).bind ?_ s hs
      rintro (b | b) t (inside | out)
      · obtain ⟨m, lower, hm⟩ := inside
        exact ih (by omega) b t hm
      · exact stays budget b t out
      · exact .inl inside
      · exact .inr out

/-- A loop whose iterations lower the index of an invariant does not spend a budget above the index. -/
theorem Ensures.loop_of_variant {isDone : σ → Bool} {ifDone : β}
    {iterate : α → EStateM Failure σ (Turn α β)} {post : β → σ → Prop} {fail : Failure → σ → Prop}
    (inv : Nat → σ → Prop) (finish : ∀ n s, inv n s → isDone s = true → post ifDone s)
    (step : ∀ n a, Ensures (inv n) (iterate a) (onTurn (fun _ s => ∃ m < n, inv m s) post) fail)
    {n budget : Nat} (enough : n < budget) (a : α) :
    Ensures (inv n) (Statewalk.loop isDone ifDone iterate budget a) post fail := by
  have inside : Ensures (inv n) (Statewalk.loop isDone ifDone iterate budget a) (fun b s => post b s ∨ False) fail :=
    loop_of_variant_or inv finish (fun n a => (step n a).imp fun _ _ => .inl) (fun _ _ => False.elim)
      (fun _ _ => False.elim) enough a
  exact inside.imp fun _ _ h => h.resolve_right id

/-- Unless the first operation spends its budget, both do the same. -/
def Outlasts (x y : EStateM Failure σ α) : Prop :=
  ∀ s, (∃ t, x s = .error .outOfFuel t) ∨ y s = x s

namespace Outlasts

theorem refl (x : EStateM Failure σ α) : Outlasts x x :=
  fun _ => .inr rfl

theorem bind {x y : EStateM Failure σ α} {f k : α → EStateM Failure σ β} (h : Outlasts x y)
    (hf : ∀ a, Outlasts (f a) (k a)) : Outlasts (x >>= f) (y >>= k) := by
  intro s
  simp only [Bind.bind, EStateM.bind]
  obtain ⟨t, spent⟩ | same := h s
  · exact .inl ⟨t, by rw [spent]⟩
  · rw [same]
    cases x s with
    | ok a t => exact hf a t
    | error failure t => exact .inr rfl

theorem loop {isDone : σ → Bool} {ifDone : β} {iterate iterate' : α → EStateM Failure σ (Turn α β)} {n m : Nat}
    (le : n ≤ m) (h : ∀ a, Outlasts (iterate a) (iterate' a)) (a : α) :
    Outlasts (Statewalk.loop isDone ifDone iterate n a) (Statewalk.loop isDone ifDone iterate' m a) := by
  intro s
  induction n generalizing m a s with
  | zero => exact .inl ⟨s, rfl⟩
  | succ n ih =>
    obtain ⟨m, rfl⟩ : ∃ k, m = k + 1 := ⟨m - 1, by omega⟩
    cases hs : isDone s with
    | true =>
      rw [loop_succ_of_done hs, loop_succ_of_done hs]
      exact .inr rfl
    | false =>
      rw [loop_succ_of_not_done hs, loop_succ_of_not_done hs]
      refine (h a).bind ?_ s
      rintro (b | b)
      · exact ih (by omega) b
      · exact .refl _

end Outlasts

end Loops

theorem DepthFirst.outlasts_run {E P L : Type} [Engine E] [Checkable E P] [Listener E P L] {n m : Nat}
    (le : n ≤ m) : Outlasts (DepthFirst.run (E := E) (P := P) (L := L) n) (DepthFirst.run m) := by
  -- Only the loop uses the budget.
  refine .bind (.refl _) fun _ => .bind ?_ fun _ => .refl _
  refine .bind (.refl _) fun _ => .bind (.refl _) fun _ => .bind ?_ fun _ => .refl _
  exact .loop le (fun _ => .refl _) false

/-! ## Moves in the journal -/

/-- The entry tells of a step forward. -/
def Entry.advances : Entry → Bool
  | .moved .forward .. => true
  | .crossed .. => true
  | _ => false

theorem Entry.not_advances {e : Entry} (h : e.isMove = false) : e.advances = false := by
  cases e <;> first | rfl | cases h

/-- The moves of the engine, the latest first. -/
def Journal.moves (j : Journal) : List Entry :=
  j.recent.filter Entry.isMove

theorem Journal.moves_record_of_move {e : Entry} (j : Journal) (h : e.isMove = true) :
    (j.record e).moves = e :: j.moves := by
  simp [moves, record, h]

theorem Journal.moves_record_of_not_move {e : Entry} (j : Journal) (h : e.isMove = false) :
    (j.record e).moves = j.moves := by
  simp [moves, record, h]

theorem Journal.crossings_eq_moves (j : Journal) :
    j.crossings = j.moves.reverse.filterMap Entry.crossing? := by
  unfold crossings entries moves
  rw [← List.filter_reverse, List.filterMap_filter]
  apply List.filterMap_congr
  intro e _
  cases e <;> rfl

namespace Run

variable {P : Type} {g : StateGraph} {byDepth : Bool} {r r' : Run GraphEngine P} {top : Frame}
  {rest : List Frame} {edge : Edge}

theorem moves_stepped_of_enters (enters : GraphEngine.Enters g r.engine top rest edge) :
    r.stepped.journal.moves =
      .crossed top.state edge.transition (decide (edge.target ∉ r.engine.visited)) ::
        .moved .forward r.depth true :: r.journal.moves := by
  show (r.stepJournal r.journal).moves = _
  rw [stepJournal, crossing?_of_enters enters, enters.forward]
  simp only
  rw [Journal.moves_record_of_move _ rfl, Journal.moves_record_of_move _ rfl]

theorem moves_stepped_of_stuck (stuck : Engine.forward r.engine = (false, r.engine.stall)) :
    r.stepped.journal.moves = .moved .forward r.depth false :: r.journal.moves := by
  show (r.stepJournal r.journal).moves = _
  rw [stepJournal, stuck]
  exact Journal.moves_record_of_move _ rfl

/-! ## Standing -/

/-- The run matches states in the given way, and stands at the depth of its engine's path. -/
structure Standing (g : StateGraph) (byDepth : Bool) (r : Run GraphEngine P) : Prop where
  matching : r.matching = true
  config : r.config.matchByMinDepth = byDepth
  wellFormed : r.engine.WellFormed g
  depth : r.depth + 1 = r.engine.frames.length

/-- The runs agree in all that a search has to answer for. -/
structure Akin (r r' : Run GraphEngine P) : Prop where
  frames : r'.engine.frames = r.engine.frames
  visited : r'.engine.visited = r.engine.visited
  isNew : r'.engine.isNew = r.engine.isNew
  depth : r'.depth = r.depth
  depths : r'.depths = r.depths
  moves : r'.journal.moves = r.journal.moves

theorem Akin.current (h : Akin r r') : r'.engine.current = r.engine.current := by
  unfold GraphEngine.current
  rw [h.frames]

theorem Akin.crossings (h : Akin r r') : r'.journal.crossings = r.journal.crossings := by
  rw [Journal.crossings_eq_moves, h.moves, Journal.crossings_eq_moves]

theorem Akin.record {e : Entry} (r : Run GraphEngine P) (h : e.isMove = false) : Akin r (r.record e) :=
  ⟨rfl, rfl, rfl, rfl, rfl, Journal.moves_record_of_not_move _ h⟩

theorem Standing.akin (h : r.Standing g byDepth) (akin : Akin r r') (matching : r'.matching = r.matching)
    (config : r'.config = r.config) (wellFormed : r'.engine.WellFormed g) : r'.Standing g byDepth := by
  refine ⟨matching.trans h.matching, ?_, wellFormed, ?_⟩
  · rw [config]
    exact h.config
  · rw [akin.depth, akin.frames]
    exact h.depth

theorem Standing.answered {answer : Bool} {depths : DepthTable} (h : r.Standing g byDepth) :
    (r.answered answer depths).Standing g byDepth :=
  ⟨h.matching, h.config, h.wellFormed, h.depth⟩

/-- What runs have in common that stand alike and are asked the same is unstirred, if a question keeps
    it. -/
theorem Unstirred.of_akin {J : Run GraphEngine P → Prop} (standing : ∀ r, J r → r.Standing g byDepth)
    (kept : ∀ r r', Akin r r' → r'.lastQuery = r.lastQuery → r'.Standing g byDepth → J r → J r')
    (ask : ∀ r answer r', J r → Run.isNew r = .ok answer r' → J r') : Unstirred J := by
  apply Unstirred.of_kept
  · intro r e silent h
    have akin := Akin.record r silent
    exact kept r _ akin rfl ((standing r h).akin akin rfl rfl (standing r h).wellFormed) h
  · intro r r' engine config depth depths matching query journal h
    have akin : Akin r r' := by
      refine ⟨?_, ?_, ?_, depth, depths, ?_⟩
      all_goals first | rw [engine] | rw [journal]
    have wellFormed := (standing r h).wellFormed
    rw [← engine] at wellFormed
    exact kept r r' akin query ((standing r h).akin akin matching config wellFormed) h
  · exact ask
  · intro r mark h
    have akin : Akin r (r.ignore mark) := ⟨rfl, rfl, rfl, rfl, rfl, rfl⟩
    have wellFormed := (standing r h).wellFormed
    exact kept r _ akin rfl ((standing r h).akin akin rfl rfl
      ⟨wellFormed.graph, wellFormed.stacked, wellFormed.application, wellFormed.threads⟩) h

/-- A question fails only where states are matched by depth. -/
theorem byDepth_of_isNew_error {E : Type} [Engine E] {r r' : Run E P} {f : Failure}
    (h : Run.isNew r = .error f r') : r.matching = true ∧ r.config.matchByMinDepth = true := by
  by_cases matching : r.matching = true
  · refine ⟨matching, ?_⟩
    by_contra plain
    have failed := judge_of_isNew_error matching h
    rw [judge_of_plain (by simpa using plain)] at failed
    cases failed
  · simp only [Run.isNew, EStateM.get_bind_apply] at h
    rw [if_neg matching] at h
    cases h

theorem isNew_error_ne_outOfFuel {E : Type} [Engine E] {r r' : Run E P} {f : Failure}
    (h : Run.isNew r = .error f r') : f ≠ .outOfFuel := by
  obtain ⟨matching, byDepth⟩ := byDepth_of_isNew_error h
  have judged := judged_judge byDepth
  rw [judge_of_isNew_error matching h] at judged
  cases judged <;> simp

/-- What is owed when the current state is new, or is not: two iterations for each of the `total`
    transitions but those taken, one for each frame, and one for a new state. -/
def owed (total : Nat) (answer : Bool) (r : Run GraphEngine P) : Nat :=
  2 * (total - r.journal.crossings.length) + r.engine.frames.length + answer.toNat

theorem Akin.owed (h : Akin r r') (total : Nat) (answer : Bool) :
    r'.owed total answer = r.owed total answer := by
  unfold Run.owed
  rw [h.crossings, h.frames]

end Run

/-! ## Regimes -/

namespace DepthFirst

open Search

variable {P L : Type} {g : StateGraph} {total n : Nat} {byDepth : Bool}
  {arrived held : Bool → Run GraphEngine P → Prop} {thrifty : Journal → Prop} {r r' : Run GraphEngine P}

/-- What there is to prove of a way to match states.  A run has `arrived` at a state with the answer
    that it will get when it asks whether the state is new; once it got it, the answer is `held`, and
    while the search goes on from a state it is held that it was new. -/
structure Regime (g : StateGraph) (total : Nat) (byDepth : Bool)
    (arrived held : Bool → Run GraphEngine P → Prop) (thrifty : Journal → Prop) : Prop where
  arrived_akin : ∀ answer r r', Run.Akin r r' → arrived answer r → arrived answer r'
  held_akin : ∀ answer r r', Run.Akin r r' → held answer r → held answer r'
  arrived_thrifty : ∀ answer r, arrived answer r → thrifty r.journal
  held_thrifty : ∀ answer r, held answer r → thrifty r.journal
  thrifty_record : ∀ e j, e.advances = false → thrifty j → thrifty (j.record e)
  bounded : ∀ answer r, arrived answer r → r.journal.crossings.length ≤ total
  ask : ∀ answer given depths r, r.Standing g byDepth → arrived answer r →
    r.judge = .ok (given, depths) → given = answer ∧ held answer (r.answered given depths)
  again : ∀ given depths r, r.Standing g byDepth → held true r → r.judge = .ok (given, depths) →
    held true (r.answered given depths)
  moves : ∀ r top rest edge, r.Standing g byDepth → held true r →
    GraphEngine.Enters g r.engine top rest edge →
      ∃ answer, arrived answer { r.stepped with depth := r.depth + 1 }
  stuck : ∀ r top rest, r.Standing g byDepth → held true r → r.engine.frames = top :: rest →
    top.tried = top.choices.length → Engine.forward r.engine = (false, r.engine.stall) →
      arrived false r.stepped
  back : ∀ answer r top below rest, r.Standing g byDepth → held answer r →
    r.engine.frames = top :: below :: rest →
      held true { r.forgetQuery.stepBack.2 with depth := r.depth - 1 }

/-- The run is about to ask, or was told the answer already, and owes at most `n` iterations. -/
structure Poised (g : StateGraph) (total : Nat) (byDepth : Bool)
    (arrived held : Bool → Run GraphEngine P → Prop) (n : Nat) (r : Run GraphEngine P) : Prop where
  standing : r.Standing g byDepth
  due : ∃ answer, r.owed total answer ≤ n ∧
    ((r.lastQuery = none ∧ arrived answer r) ∨ (r.cachedAnswer? = some answer ∧ held answer r))

/-- The run got its answer. -/
structure Told (g : StateGraph) (total : Nat) (byDepth : Bool) (held : Bool → Run GraphEngine P → Prop)
    (n : Nat) (answer : Bool) (r : Run GraphEngine P) : Prop where
  standing : r.Standing g byDepth
  owed : r.owed total answer ≤ n
  held : held answer r

namespace Regime

variable (regime : Regime g total byDepth arrived held thrifty)

include regime

/-- The answer is the one that was due. -/
theorem told_of_poised {given : Bool} (h : Poised g total byDepth arrived held n r)
    (asked : Run.isNew r = .ok given r') : Told g total byDepth held n given r' := by
  obtain ⟨answer, owed, due⟩ := h.due
  obtain ⟨cached, rfl⟩ | ⟨depths, uncached, judged, rfl⟩ := Run.cases_of_isNew h.standing.matching asked
  · obtain ⟨unasked, -⟩ | ⟨cached', held⟩ := due
    · obtain ⟨q, query, -⟩ := Run.exists_of_cachedAnswer? cached
      rw [unasked] at query
      cases query
    · rw [cached, Option.some.injEq] at cached'
      subst cached'
      exact ⟨h.standing, owed, held⟩
  · obtain ⟨-, arrived⟩ | ⟨cached, -⟩ := due
    · obtain ⟨rfl, held⟩ := regime.ask answer given depths r h.standing arrived judged
      exact ⟨h.standing.answered, owed, held⟩
    · rw [uncached] at cached
      cases cached

theorem unstirred_poised : Run.Unstirred (Poised g total byDepth arrived held n) := by
  refine .of_akin (fun r h => h.standing) ?_ ?_
  · intro r r' akin query standing h
    obtain ⟨answer, owed, due⟩ := h.due
    have cached : r'.cachedAnswer? = r.cachedAnswer? := by
      simp only [Run.cachedAnswer?, Engine.stateId, query, akin.current, akin.depth]
    refine ⟨standing, answer, ?_, ?_⟩
    · rwa [akin.owed]
    · rw [query, cached]
      exact due.imp (.imp_right (regime.arrived_akin answer r r' akin))
        (.imp_right (regime.held_akin answer r r' akin))
  · intro r given r' h asked
    have told := regime.told_of_poised h asked
    exact ⟨told.standing, given, told.owed,
      .inr ⟨Run.cachedAnswer?_of_isNew h.standing.matching asked, told.held⟩⟩

theorem unstirred_told : Run.Unstirred (Told g total byDepth held n true) := by
  refine .of_akin (fun r h => h.standing) ?_ ?_
  · intro r r' akin _ standing h
    refine ⟨standing, ?_, regime.held_akin true r r' akin h.held⟩
    rw [akin.owed]
    exact h.owed
  · intro r given r' h asked
    obtain ⟨-, rfl⟩ | ⟨depths, -, judged, rfl⟩ := Run.cases_of_isNew h.standing.matching asked
    · exact h
    · exact ⟨h.standing.answered, h.owed, regime.again given depths r h.standing h.held judged⟩

theorem thrifty_of_poised (h : Poised g total byDepth arrived held n r) : thrifty r.journal := by
  obtain ⟨answer, -, ⟨-, arrived⟩ | ⟨-, held⟩⟩ := h.due
  · exact regime.arrived_thrifty answer r arrived
  · exact regime.held_thrifty answer r held

theorem unstirred_thrifty : Run.Unstirred fun r : Run GraphEngine P => thrifty r.journal := by
  apply Run.Unstirred.of_kept
  · exact fun r e silent h => regime.thrifty_record e r.journal (Entry.not_advances silent) h
  · intro r r' _ _ _ _ _ _ journal h
    rw [journal]
    exact h
  · intro r answer r' h asked
    obtain ⟨answer, depths, query, given, -⟩ | ⟨f, failed, -⟩ := Run.isNew_cases r
    · rw [given] at asked
      cases asked
      exact h
    · rw [failed] at asked
      cases asked
  · exact fun r mark h => h

/-- An iteration pays what it owes: it takes a transition, steps back, or finds that the current state
    has no more transitions to take. -/
theorem outline (n : Nat) : Outline (Poised g total byDepth arrived held n)
    (fun r => ∃ m < n, Poised g total byDepth arrived held m r) (Told g total byDepth held n true)
    (fun r => thrifty r.journal) (Told g total byDepth held n) (· ≠ .outOfFuel) where
  closed :=
    { own := by
        rintro f own rfl
        cases own
      raised := fun f event name h => Failure.raisedBy_ne_outOfFuel h event name }
  stable_head := ⟨regime.unstirred_poised, fun r => regime.thrifty_of_poised,
    fun r f _ => Run.isNew_error_ne_outOfFuel⟩
  stable_next := by
    refine ⟨?_, ?_, fun r f _ => Run.isNew_error_ne_outOfFuel⟩
    · rintro r r' ⟨m, lower, h⟩ stir
      exact ⟨m, lower, regime.unstirred_poised r r' h stir⟩
    · rintro r ⟨m, -, h⟩
      exact regime.thrifty_of_poised h
  stable_opened := ⟨regime.unstirred_told, fun r h => regime.held_thrifty true r h.held,
    fun r f _ => Run.isNew_error_ne_outOfFuel⟩
  stable_final := ⟨regime.unstirred_thrifty, fun r h => h, fun r f _ => Run.isNew_error_ne_outOfFuel⟩
  depth r d h := h
  ask r given r' h asked := regime.told_of_poised h asked
  taken r answer h := ⟨⟨h.standing.matching, h.standing.config, h.standing.wellFormed, h.standing.depth⟩,
    h.owed, regime.held_akin answer r _ ⟨rfl, rfl, rfl, rfl, rfl, rfl⟩ h.held⟩
  stays r h := h
  back r answer r' h back := by
    obtain ⟨top, rest, frames⟩ := h.standing.wellFormed.exists_frames
    cases rest with
    | nil =>
      have root := Run.stepBack_of_root frames
      rw [back] at root
      cases root
    | cons below rest =>
      have engine := Run.engine_stepBack_of_frames frames
      have held := regime.back answer r top below rest h.standing h.held frames
      have crossings := Run.crossings_stepBack r
      have depth := h.standing.depth
      have owed := h.owed
      obtain rfl : r.forgetQuery.stepBack.2 = r' := congrArg Prod.snd back
      refine ⟨⟨h.standing.matching, h.standing.config, ?_, ?_⟩, ?_, held⟩
      · show r.forgetQuery.stepBack.2.engine.WellFormed g
        rw [engine]
        exact h.standing.wellFormed.backtrack frames
      · show r.depth - 1 + 1 = r.forgetQuery.stepBack.2.engine.frames.length
        rw [frames] at depth
        rw [engine, GraphEngine.frames_popped]
        simp only [List.length_cons] at depth ⊢
        omega
      · simp only [Run.owed, frames, List.length_cons] at owed
        simp only [Run.owed, crossings, engine, GraphEngine.frames_popped, List.length_cons,
          Bool.toNat_true]
        omega
  exhausted r answer r' h back := by
    obtain rfl : r.forgetQuery.stepBack.2 = r' := congrArg Prod.snd back
    exact regime.thrifty_record _ r.journal rfl (regime.held_thrifty answer r h.held)
  moves r h moved := by
    obtain ⟨top, rest, frames⟩ := h.standing.wellFormed.exists_frames
    obtain ⟨edge, enters⟩ | ⟨-, stuck⟩ := h.standing.wellFormed.forward_cases frames
    · obtain ⟨answer, arrived⟩ := regime.moves r top rest edge h.standing h.held enters
      have bounded := regime.bounded answer _ arrived
      have engine := Run.engine_stepped_of_enters enters
      have crossings := congrArg List.length (Run.crossings_stepped_of_enters enters)
      have owed := h.owed
      have depth := h.standing.depth
      have answer_le := Bool.toNat_le answer
      simp only [List.length_append, List.length_cons, List.length_nil] at crossings
      simp only [Run.owed, frames, List.length_cons, Bool.toNat_true] at owed
      rw [frames, List.length_cons] at depth
      refine ⟨Run.owed total answer { r.stepped with depth := r.depth + 1 }, ?_, ⟨⟨h.standing.matching,
        h.standing.config, ?_, ?_⟩, answer, Nat.le_refl _, .inl ⟨rfl, arrived⟩⟩⟩
      · -- The transition taken pays for the frame and the question that came with it.
        simp only [Run.owed, engine, GraphEngine.frames_enter, List.length_cons, crossings] at bounded ⊢
        omega
      · show r.stepped.engine.WellFormed g
        rw [engine]
        exact enters.wellFormed
      · show r.depth + 1 + 1 = r.stepped.engine.frames.length
        rw [engine, GraphEngine.frames_enter]
        simp only [List.length_cons]
        omega
    · rw [stuck] at moved
      cases moved
  stuck r h refused := by
    obtain ⟨top, rest, frames⟩ := h.standing.wellFormed.exists_frames
    obtain ⟨edge, enters⟩ | ⟨spent, stuck⟩ := h.standing.wellFormed.forward_cases frames
    · rw [enters.forward] at refused
      cases refused
    · have arrived := regime.stuck r top rest h.standing h.held frames spent stuck
      have engine := Run.engine_stepped_of_stuck stuck
      have crossings := Run.crossings_stepped_of_stuck stuck
      have owed := h.owed
      refine ⟨Run.owed total false r.stepped, ?_, ⟨⟨h.standing.matching, h.standing.config, ?_, ?_⟩, false,
        Nat.le_refl _, .inl ⟨rfl, arrived⟩⟩⟩
      · have same : r.stepped.engine.frames = r.engine.frames := by
          rw [engine]
          rfl
        simp only [Run.owed, Bool.toNat_true] at owed
        simp only [Run.owed, crossings, same, Bool.toNat_false]
        omega
      · rw [engine]
        exact h.standing.wellFormed.stall
      · rw [engine]
        exact h.standing.depth

variable [Checkable GraphEngine P] [Listener GraphEngine P L] {allowed : L → Prop}
  {start : Run GraphEngine P → Prop}

/-- With a budget above what is owed at the start, a run does not spend it. -/
theorem ensures_run (restrained : Listener.Restrained (E := GraphEngine) (P := P) (fun _ => True) allowed)
    (candid : Listener.Candid (E := GraphEngine) (P := P) (fun _ => True) allowed)
    (recorded : ∀ r e, e.isMove = false → start r → start (r.record e))
    (begun : ∀ r, start r → Poised g total byDepth arrived held n { r with matching := true, depth := 0 })
    {budget : Nat} (enough : n < budget) :
    Proceeds (fun r => thrifty r.journal) (· ≠ .outOfFuel) allowed start
      (DepthFirst.run (E := GraphEngine) (P := P) (L := L) budget) fun _ r => thrifty r.journal := by
  apply (regime.outline n).ensures_run restrained candid (fun _ _ => trivial) recorded begun
  apply Ensures.loop_of_variant (fun n => Heeded allowed (Poised g total byDepth arrived held n))
  · exact fun n s hs _ => hs.imp fun r => regime.thrifty_of_poised
  · intro n limitReached
    apply ((regime.outline n).ensures_iterate restrained candid (fun _ _ => trivial) limitReached).imp
    intro turn s hs
    cases turn with
    | stop reason => exact hs
    | again limitReached =>
      obtain ⟨m, lower, head⟩ := hs.run
      exact ⟨m, lower, hs.listeners, hs.reporter, head⟩
  · exact enough

end Regime

end DepthFirst

end Statewalk
