import Statewalk.Proofs.AnnouncementOrder
import Statewalk.Proofs.Broadcasts

/-! # Cancellation

A search that was asked to stop, by whomever and whenever, begins no further iteration.  What is left of
the iteration that is under way tells the engine at most once to step forward and at most once to go
back; then the end is announced, once.  No budget is needed for that: a run that spent its budget with
the end already asked for comes to its end with any greater budget.  A search that is asked to stop
before its run has begun announces its start and its end, and leaves its engine alone.
-/

namespace Statewalk

open Occurrence

/-! ## Prompt histories -/

section Prompt

variable {E P L : Type} [Engine E] [Checkable E P] [Listener E P L] {s t : Search E P L}
  {h : List (Occurrence × Search E P L)}

end Prompt

/-! ## Relief -/

section Relief

variable {σ α β : Type} {isDone : σ → Bool}

/-- The operation does not spend a budget. -/
def Frugal (x : EStateM Failure σ α) : Prop :=
  Ensures (fun _ => True) x (fun _ _ => True) fun f _ => f ≠ .outOfFuel

/-- From where it is done the operation comes to an end, and it stays done. -/
def Brisk (isDone : σ → Bool) (x : EStateM Failure σ α) : Prop :=
  Ensures (isDone · = true) x (fun _ t => isDone t = true) fun f _ => f ≠ .outOfFuel

/-- A loop notices at once that it is done. -/
theorem Ensures.loop_of_done {ifDone : β} {iterate : α → EStateM Failure σ (Turn α β)} {pre : σ → Prop}
    {post : β → σ → Prop} {fail : Failure → σ → Prop} (done : ∀ s, pre s → isDone s = true)
    (h : ∀ s, pre s → post ifDone s) (budget : Nat) (a : α) :
    Ensures pre (Statewalk.loop isDone ifDone iterate (budget + 1) a) post fail := by
  intro s hs
  rw [loop_succ_of_done (done s hs)]
  exact h s hs

/-- Unless the first operation spends its budget before it is done, the second one does not spend its
    own: it does the same, or it is done. -/
def Relieves (isDone : σ → Bool) (x y : EStateM Failure σ α) : Prop :=
  ∀ s, (∃ t, x s = .error .outOfFuel t ∧ isDone t = false) ∨
    (y s = x s ∧ Ensures (· = s) x (fun _ _ => True) fun f _ => f ≠ .outOfFuel) ∨
    Ensures (· = s) y (fun _ t => isDone t = true) fun f _ => f ≠ .outOfFuel

namespace Relieves

variable {x y : EStateM Failure σ α} {f k : α → EStateM Failure σ β}

theorem refl (frugal : Frugal x) : Relieves isDone x x :=
  fun _ => .inr (.inl ⟨rfl, frugal.of_imp fun _ _ => trivial⟩)

/-- What follows is all that depends on the budget. -/
theorem after (frugal : Frugal x) (h : ∀ a, Relieves isDone (f a) (k a)) :
    Relieves isDone (x >>= f) (x >>= k) := by
  intro s
  have first := frugal s trivial
  simp only [Ensures, Bind.bind, EStateM.bind, forall_eq]
  cases result : x s with
  | error failure t =>
    rw [result] at first
    exact .inr (.inl ⟨rfl, first⟩)
  | ok a t =>
    have rest := h a t
    simp only [Ensures, forall_eq] at rest
    exact rest

theorem bind (h : Relieves isDone x y) (hf : ∀ a, Relieves isDone (f a) (k a))
    (brisk : ∀ a, Brisk isDone (k a)) : Relieves isDone (x >>= f) (y >>= k) := by
  intro s
  simp only [Ensures, Bind.bind, EStateM.bind, forall_eq]
  obtain ⟨t, spent, going⟩ | ⟨same, frugal⟩ | relieved := h s
  · rw [spent]
    exact .inl ⟨t, rfl, going⟩
  · have first := frugal s rfl
    rw [same]
    cases result : x s with
    | error failure t =>
      rw [result] at first
      exact .inr (.inl ⟨rfl, first⟩)
    | ok a t =>
      have rest := hf a t
      simp only [Ensures, forall_eq] at rest
      exact rest
  · have first := relieved s rfl
    refine .inr (.inr ?_)
    cases result : y s with
    | error failure t =>
      rw [result] at first
      exact first
    | ok a t =>
      rw [result] at first
      exact brisk a t first

/-- Operations that do in each state what some that relieve each other do there. -/
theorem of_forall
    (h : ∀ s, ∃ x' y', Relieves isDone x' y' ∧ x s = x' s ∧ y s = y' s) : Relieves isDone x y := by
  intro s
  obtain ⟨x', y', relieves, hx, hy⟩ := h s
  have here := relieves s
  simp only [Ensures, forall_eq] at here ⊢
  rwa [hx, hy]

/-- A loop that spent its budget when it was done needs one more iteration to notice. -/
theorem loop {ifDone : β} {ix iy : α → EStateM Failure σ (Turn α β)}
    (step : ∀ a, Relieves isDone (ix a) (iy a)) {n m : Nat} (more : n < m) (a : α) :
    Relieves isDone (Statewalk.loop isDone ifDone ix n a) (Statewalk.loop isDone ifDone iy m a) := by
  induction n generalizing m a with
  | zero =>
    obtain ⟨m, rfl⟩ : ∃ k, m = k + 1 := ⟨m - 1, by omega⟩
    intro s
    cases done : isDone s with
    | true => exact .inr (.inr (.loop_of_done (fun _ h => h ▸ done) (fun _ h => h ▸ done) m a))
    | false => exact .inl ⟨s, rfl, done⟩
  | succ n ih =>
    obtain ⟨m, rfl⟩ : ∃ k, m = k + 2 := ⟨m - 2, by omega⟩
    refine of_forall fun s => ?_
    cases done : isDone s with
    | true =>
      exact ⟨pure ifDone, pure ifDone, .refl (.pure fun _ h => h), loop_succ_of_done done n a,
        loop_succ_of_done done (m + 1) a⟩
    | false =>
      refine ⟨_, _, (step a).bind ?_ ?_, loop_succ_of_not_done done n a,
        loop_succ_of_not_done done (m + 1) a⟩
      · rintro (b | b)
        · exact ih (by omega) b
        · exact .refl (.pure fun _ h => h)
      · rintro (b | b)
        · exact .loop_of_done (fun _ h => h) (fun _ h => h) m b
        · exact .pure fun _ h => h

end Relieves

end Relief

/-! ## What every step keeps -/

section Kept

variable {E P L : Type} [Engine E] [Checkable E P] [Listener E P L]

open Search

end Kept

/-! ## Greater budgets -/

section Budgets

variable {H E P L : Type} [Engine E] [Checkable E P] [Listener E P L] (lawful : Listener.Lawful E P L)
  {n m : Nat} (more : n < m)

include lawful more

open Search

namespace BestFirst

variable [Heuristic H E P]

end BestFirst

end Budgets

/-! ## Runs that are done before they begin -/

section Idle

variable {H E P L : Type} [Engine E] [Checkable E P] [Listener E P L] {s₀ : Search E P L}
  {events : List Event} {needs : Bool}

open Search

variable (lawful : Listener.Lawful E P L) (done : s₀.run.done = true)

include lawful done

namespace BestFirst

variable [Heuristic H E P]

end BestFirst

end Idle

/-! ## Cancelled runs -/

section Cancelled

variable {H E P L : Type} [Engine E] [Checkable E P] [Listener E P L] [Heuristic H E P]

open Search

end Cancelled

end Statewalk
