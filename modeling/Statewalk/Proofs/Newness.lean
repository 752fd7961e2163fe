import Statewalk.Proofs.QuietRuns

/-! # Asking for newness

How the question whether the current state is new is answered: the last answer is given again if the
search did not move since, and otherwise the state is judged anew and the answer kept.
-/

namespace Statewalk

namespace Run

variable {E P : Type} [Engine E] {r r' : Run E P} {answer : Bool} {f : Failure}

/-- The answer is kept for the current state at the current depth. -/
def answered (answer : Bool) (depths : DepthTable) (r : Run E P) : Run E P :=
  { r with depths, lastQuery := some { state := Engine.stateId r.engine, depth := r.depth, answer } }

theorem exists_of_cachedAnswer? (h : r.cachedAnswer? = some answer) :
    ∃ q, r.lastQuery = some q ∧ q.state = Engine.stateId r.engine ∧ q.depth = r.depth ∧
      q.answer = answer := by
  unfold cachedAnswer? at h
  split at h
  · rename_i q query
    split at h
    · rename_i same
      exact ⟨q, query, same.1, same.2, Option.some.inj h⟩
    · cases h
  · cases h

theorem cachedAnswer?_answered (r : Run E P) (depths : DepthTable) :
    (r.answered answer depths).cachedAnswer? = some answer := by
  simp [cachedAnswer?, answered]

section Matching

variable (matching : r.matching = true)

include matching

theorem isNew_of_cached (cached : r.cachedAnswer? = some answer) : isNew r = .ok answer r := by
  simp only [isNew, EStateM.get_bind_apply]
  rw [if_pos matching, cached]
  rfl

theorem isNew_of_judged {depths : DepthTable} (uncached : r.cachedAnswer? = none)
    (judged : r.judge = .ok (answer, depths)) : isNew r = .ok answer (r.answered answer depths) := by
  simp only [isNew, EStateM.get_bind_apply]
  rw [if_pos matching, uncached, judged]
  rfl

theorem isNew_of_failed (uncached : r.cachedAnswer? = none) (failed : r.judge = .error f) :
    isNew r = .error f r := by
  simp only [isNew, EStateM.get_bind_apply]
  rw [if_pos matching, uncached, failed]
  rfl

/-- A question is answered from memory or by a judgement. -/
theorem cases_of_isNew (h : isNew r = .ok answer r') :
    (r.cachedAnswer? = some answer ∧ r' = r) ∨
      ∃ depths, r.cachedAnswer? = none ∧ r.judge = .ok (answer, depths) ∧
        r' = r.answered answer depths := by
  cases cached : r.cachedAnswer? with
  | some kept =>
    rw [isNew_of_cached matching cached] at h
    cases h
    exact .inl ⟨rfl, rfl⟩
  | none =>
    cases judged : r.judge with
    | ok result =>
      rw [isNew_of_judged matching cached judged] at h
      cases h
      exact .inr ⟨result.2, rfl, rfl, rfl⟩
    | error f =>
      rw [isNew_of_failed matching cached judged] at h
      cases h

/-- A question fails with what the judgement fails with. -/
theorem judge_of_isNew_error (h : isNew r = .error f r') : r.judge = .error f := by
  cases cached : r.cachedAnswer? with
  | some kept =>
    rw [isNew_of_cached matching cached] at h
    cases h
  | none =>
    cases judged : r.judge with
    | ok result =>
      rw [isNew_of_judged matching cached judged] at h
      cases h
    | error f =>
      rw [isNew_of_failed matching cached judged] at h
      cases h
      rfl

/-- An answer is kept, however it was come by. -/
theorem cachedAnswer?_of_isNew (h : isNew r = .ok answer r') : r'.cachedAnswer? = some answer := by
  obtain ⟨cached, rfl⟩ | ⟨depths, -, -, rfl⟩ := cases_of_isNew matching h
  · exact cached
  · exact cachedAnswer?_answered r depths

end Matching

/-! ## Matching by depth -/

/-- How a state is judged by depth: it is recorded, if it is new to the engine or was only met deeper;
    it is known well enough; there is no record of it; or there is no room for one. -/
inductive Judged (r : Run E P) : Except Failure (Bool × DepthTable) → Prop where
  | recorded {depths : DepthTable} :
      r.depths.set (Engine.stateId r.engine) r.depth = .ok depths →
      (Engine.isNew r.engine = false →
        ∃ d, r.depths.find? (Engine.stateId r.engine) = some d ∧ r.depth < d) →
      Judged r (.ok (true, depths))
  | known {d : Nat} : Engine.isNew r.engine = false →
      r.depths.find? (Engine.stateId r.engine) = some d → d ≤ r.depth → Judged r (.ok (false, r.depths))
  | unrecorded : Engine.isNew r.engine = false → r.depths.find? (Engine.stateId r.engine) = none →
      Judged r (.error (.unvisited (Engine.stateId r.engine)))
  | full (fault : Fault) : Judged r (.error (.fault fault))

theorem judged_of_recordDepth (h : Engine.isNew r.engine = false →
    ∃ d, r.depths.find? (Engine.stateId r.engine) = some d ∧ r.depth < d) :
    Judged r (r.recordDepth.map fun depths => (true, depths)) := by
  unfold recordDepth
  cases set : r.depths.set (Engine.stateId r.engine) r.depth with
  | ok depths => exact .recorded set h
  | error fault => exact .full fault

theorem judged_judge (byDepth : r.config.matchByMinDepth = true) : Judged r r.judge := by
  unfold judge
  rw [if_pos byDepth]
  cases isNew : Engine.isNew r.engine with
  | true =>
    rw [if_pos rfl]
    exact judged_of_recordDepth fun old => absurd (isNew.symm.trans old) (by simp)
  | false =>
    rw [if_neg Bool.false_ne_true]
    cases found : r.depths.find? (Engine.stateId r.engine) with
    | none =>
      have missing : r.depths.get (Engine.stateId r.engine) =
          .error (.unvisited (Engine.stateId r.engine)) := by simp [DepthTable.get, found]
      rw [missing]
      exact .unrecorded isNew found
    | some d =>
      have got : r.depths.get (Engine.stateId r.engine) = .ok d := by simp [DepthTable.get, found]
      simp only [got]
      split
      · rename_i less
        exact judged_of_recordDepth fun _ => ⟨d, found, less⟩
      · rename_i more
        exact .known isNew found (Nat.le_of_not_lt more)

end Run

end Statewalk
