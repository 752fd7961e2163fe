import Statewalk.Proofs.ChoiceStack
import Statewalk.Session.Subject

/-! # Properties of states

Forbidden states and deadlocks are properties of the state that an engine over a graph is in: what
they gather while they are checked makes no difference to any later check.
-/

namespace Statewalk

/-- Some thread has not terminated, and none can run. -/
def ThreadList.isStuck (l : ThreadList) : Bool :=
  l.threads.any (·.status ≠ .terminated) && l.runnableCount = 0

namespace Subject

/-- A set of forbidden states, or the absence of deadlocks. -/
def isStatic : Subject → Bool
  | .forbidden _ => true
  | .noDeadlock _ => true
  | _ => false

/-- The property does not hold in a state of the graph. -/
def breaksAt (g : StateGraph) (s : StateId) : Subject → Bool
  | .forbidden p => s ∈ p.states
  | .noDeadlock _ => ThreadList.isStuck { threads := g.threadsAt s }
  | _ => false

variable {g : StateGraph} {r : Run GraphEngine Subject} {p : Subject}

theorem holds_checkThreads (l : ThreadList) (p : NoDeadlock) :
    (p.checkThreads l).1 = !l.isStuck := by
  have live : (l.threads.filter (·.status ≠ .terminated)).isEmpty =
      !l.threads.any (·.status ≠ .terminated) := by
    rw [Bool.eq_iff_iff]
    simp
  simp only [NoDeadlock.checkThreads, ThreadList.isStuck, live]
  by_cases runs : l.runnableCount = 0
  · cases l.threads.any (·.status ≠ .terminated) <;> simp [runs]
  · have some : 0 < l.runnableCount := Nat.pos_of_ne_zero runs
    simp [runs, some]

theorem check_static (static : p.isStatic = true) (wellFormed : GraphEngine.WellFormed g r.engine) :
    (p.check r).1 = !p.breaksAt g r.engine.current ∧ (p.check r).2.isStatic = true ∧
      ∀ s, (p.check r).2.breaksAt g s = p.breaksAt g s := by
  cases p with
  | forbidden p =>
    show (p.checkState r.engine.current).1 = _ ∧ _
    simp only [check, ForbiddenStates.checkState]
    split <;> simp_all [breaksAt, isStatic, Engine.stateId]
  | noDeadlock p =>
    have threads := holds_checkThreads r.engine.threads p
    rw [wellFormed.threads] at threads
    refine ⟨?_, rfl, fun _ => rfl⟩
    show (p.checkThreads r.engine.threads).1 = _
    rw [wellFormed.threads, threads]
    rfl
  | counting => cases static
  | predicate => cases static

theorem reset_static (static : p.isStatic = true) :
    (Property.reset p).isStatic = true ∧ ∀ s, (Property.reset p).breaksAt g s = p.breaksAt g s := by
  cases p with
  | forbidden p => exact ⟨rfl, fun _ => rfl⟩
  | noDeadlock p => exact ⟨rfl, fun _ => rfl⟩
  | counting => cases static
  | predicate => cases static

end Subject

/-- The properties are static, and one of them is broken in exactly the bad states. -/
structure Vets (g : StateGraph) (bad : StateId → Bool) (ps : List (Watched Subject)) : Prop where
  static : ∀ w ∈ ps, w.property.isStatic = true
  breaks : ∀ s, (ps.any fun w => w.property.breaksAt g s) = bad s

namespace Vets

variable {g : StateGraph} {bad : StateId → Bool} {r : Run GraphEngine Subject}
  {ps : List (Watched Subject)}

theorem checkUntil (h : Vets g bad ps) (wellFormed : GraphEngine.WellFormed g r.engine) :
    (Run.checkUntil r ps).2.isSome = bad r.engine.current ∧ Vets g bad (Run.checkUntil r ps).1 := by
  induction ps generalizing bad with
  | nil => exact ⟨h.breaks _, h⟩
  | cons w ps ih =>
    obtain ⟨static, others⟩ := List.forall_mem_cons.1 h.static
    obtain ⟨holds, static', same⟩ := Subject.check_static static wellFormed
    have rest : Vets g (fun s => ps.any fun w => w.property.breaksAt g s) ps := ⟨others, fun _ => rfl⟩
    obtain ⟨found, vets⟩ := ih rest
    have breaks := h.breaks
    simp only [List.any_cons] at breaks
    have check : Checkable.check r w.property = Subject.check r w.property := rfl
    simp only [Run.checkUntil, check, holds]
    -- A property that holds is passed, and the first one that does not ends the check.
    cases broken : w.property.breaksAt g r.engine.current with
    | true =>
      refine ⟨by simp [← breaks, broken], List.forall_mem_cons.2 ⟨static', others⟩, ?_⟩
      intro s
      simp [same, ← breaks]
    | false =>
      refine ⟨by simp [← breaks, broken, found], List.forall_mem_cons.2 ⟨static', vets.static⟩, ?_⟩
      intro s
      simp [same, ← breaks, vets.breaks]

theorem reset (h : Vets g bad ps) :
    Vets g bad (ps.map fun w => { w with property := Property.reset w.property }) := by
  induction ps generalizing bad with
  | nil => exact h
  | cons w ps ih =>
    obtain ⟨static, others⟩ := List.forall_mem_cons.1 h.static
    obtain ⟨static', same⟩ := Subject.reset_static (g := g) static
    have rest : Vets g (fun s => ps.any fun w => w.property.breaksAt g s) ps := ⟨others, fun _ => rfl⟩
    have vets := ih rest
    refine ⟨List.forall_mem_cons.2 ⟨static', vets.static⟩, ?_⟩
    intro s
    rw [← h.breaks s, List.map_cons, List.any_cons, List.any_cons, vets.breaks, same]

end Vets

end Statewalk
