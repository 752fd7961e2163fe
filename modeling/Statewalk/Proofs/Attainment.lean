import Mathlib.Algebra.Ring.Nat
import Statewalk.Strategy.BestFirst
import Statewalk.Strategy.DepthFirst

/-! # Reasoning about operations

Operations are judged through a relation between their states and the simpler values that stand for
these.  `Attains` says that an operation succeeds and what holds after it; `Yields` says that it
succeeds in one way only.  Both are composed along `>>=`, and `Attains.loop` reduces a loop to one
of its iterations.

The second half is about budgets: a run that came to its end does so with every greater budget, so
that the budget is no part of what a run is.
-/

namespace Statewalk

variable {σ ρ α β : Type}

/-- From every state that `p` stands for, the operation succeeds, and afterwards the state is one
    that some `q` stands for, with `post` holding of the result and `q`. -/
def Attains (stands : σ → ρ → Prop) (x : EStateM Failure σ α) (p : ρ) (post : α → ρ → Prop) :
    Prop :=
  ∀ s, stands s p → ∃ a t q, x s = .ok a t ∧ stands t q ∧ post a q

/-- From every state that `p` stands for, the operation succeeds with the result `a` and leaves a
    state that `q` stands for. -/
def Yields (stands : σ → ρ → Prop) (x : EStateM Failure σ α) (p : ρ) (a : α) (q : ρ) : Prop :=
  ∀ s, stands s p → ∃ t, x s = .ok a t ∧ stands t q

theorem EStateM.bind_of_ok {x : EStateM Failure σ α} {f : α → EStateM Failure σ β} {s t : σ} {a : α}
    (h : x s = .ok a t) : (x >>= f) s = f a t := by
  simp only [bind, EStateM.bind, h]

theorem EStateM.modifyGet_apply (f : σ → α × σ) (s : σ) :
    (EStateM.modifyGet f : EStateM Failure σ α) s = .ok (f s).1 (f s).2 := rfl

section Rules

variable {stands : σ → ρ → Prop} {x : EStateM Failure σ α} {f : α → EStateM Failure σ β}
  {p q : ρ} {a : α} {post : α → ρ → Prop} {post' : β → ρ → Prop}

theorem Yields.pure (a : α) (p : ρ) : Yields stands (Pure.pure a) p a p :=
  fun s hs => ⟨s, rfl, hs⟩

theorem Yields.attains (h : Yields stands x p a q) (hpost : post a q) : Attains stands x p post := by
  intro s hs
  obtain ⟨t, ht, stand⟩ := h s hs
  exact ⟨a, t, q, ht, stand, hpost⟩

theorem Attains.imp (h : Attains stands x p post) {weaker : α → ρ → Prop}
    (imp : ∀ a q, post a q → weaker a q) : Attains stands x p weaker := by
  intro s hs
  obtain ⟨a, t, q, ht, stand, hpost⟩ := h s hs
  exact ⟨a, t, q, ht, stand, imp a q hpost⟩

theorem Attains.bind (h : Attains stands x p post)
    (hf : ∀ a q, post a q → Attains stands (f a) q post') : Attains stands (x >>= f) p post' := by
  intro s hs
  obtain ⟨a, t, q, ht, stand, hpost⟩ := h s hs
  obtain ⟨b, u, r, hu, stand', hpost'⟩ := hf a q hpost t stand
  exact ⟨b, u, r, by rw [EStateM.bind_of_ok ht, hu], stand', hpost'⟩

theorem Yields.bind_attains (h : Yields stands x p a q) (hf : Attains stands (f a) q post') :
    Attains stands (x >>= f) p post' := by
  intro s hs
  obtain ⟨t, ht, stand⟩ := h s hs
  obtain ⟨b, u, r, hu, stand', hpost'⟩ := hf t stand
  exact ⟨b, u, r, by rw [EStateM.bind_of_ok ht, hu], stand', hpost'⟩

theorem Yields.bind {b : β} {r : ρ} (h : Yields stands x p a q) (hf : Yields stands (f a) q b r) :
    Yields stands (x >>= f) p b r := by
  intro s hs
  obtain ⟨t, ht, stand⟩ := h s hs
  obtain ⟨u, hu, stand'⟩ := hf t stand
  exact ⟨u, by rw [EStateM.bind_of_ok ht, hu], stand'⟩

theorem Yields.set {s : σ} (h : stands s q) : Yields stands (MonadState.set s) p ⟨⟩ q :=
  fun _ _ => ⟨s, rfl, h⟩

/-- An operation that looks at its own state first. -/
theorem Attains.get {f : σ → EStateM Failure σ α}
    (h : ∀ s, stands s p → Attains stands (f s) p post) :
    Attains stands (MonadState.get >>= f) p post :=
  fun s hs => h s hs s hs

/-- What an iteration leads to: the loop goes on with its invariant and a measure below the bound,
    or it stops with its postcondition. -/
def Turn.Leads (inv : α → ρ → Prop) (measure : α → ρ → Nat) (bound : Nat) (post : β → ρ → Prop) :
    Turn α β → ρ → Prop
  | .again a, q => inv a q ∧ measure a q < bound
  | .stop b, q => post b q

theorem Attains.leads_le {inv : α → ρ → Prop} {measure : α → ρ → Nat} {bound bound' : Nat}
    {x : EStateM Failure σ (Turn α β)} (h : Attains stands x p (Turn.Leads inv measure bound post'))
    (le : bound ≤ bound') : Attains stands x p (Turn.Leads inv measure bound' post') := by
  refine h.imp ?_
  rintro (a | b) q hq
  · exact ⟨hq.1, Nat.lt_of_lt_of_le hq.2 le⟩
  · exact hq

/-- A loop whose iterations keep an invariant, under which it is not done, and lower a measure comes
    to its end within a budget above the measure. -/
theorem Attains.loop {isDone : σ → Bool} {ifDone : β}
    {iterate : α → EStateM Failure σ (Turn α β)} (inv : α → ρ → Prop) (measure : α → ρ → Nat)
    (going : ∀ a s p, stands s p → inv a p → isDone s = false)
    (step : ∀ a p, inv a p →
      Attains stands (iterate a) p (Turn.Leads inv measure (measure a p) post'))
    {budget : Nat} (hinv : inv a p) (enough : measure a p < budget) :
    Attains stands (Statewalk.loop isDone ifDone iterate budget a) p post' := by
  -- The budget bounds the measure of whatever state the iteration is entered with.
  induction budget generalizing a p with
  | zero => omega
  | succ budget ih =>
    intro s hs
    rw [loop_succ_of_not_done (going a s p hs hinv)]
    refine (step a p hinv).bind ?_ s hs
    rintro (b | b) q hturn
    · exact ih hturn.1 (Nat.lt_of_lt_of_le hturn.2 (Nat.le_of_lt_succ enough))
    · exact (Yields.pure b q).attains hturn

end Rules

/-! ## Budgets -/

/-- Whenever the first operation succeeds, so does the second, in the same way. -/
def Extends (x y : EStateM Failure σ α) : Prop :=
  ∀ s a t, x s = .ok a t → y s = .ok a t

theorem Extends.refl (x : EStateM Failure σ α) : Extends x x :=
  fun _ _ _ h => h

theorem Extends.bind {x y : EStateM Failure σ α} {f k : α → EStateM Failure σ β}
    (h : Extends x y) (hf : ∀ a, Extends (f a) (k a)) : Extends (x >>= f) (y >>= k) := by
  intro s b u hb
  cases hx : x s with
  | error _ _ => simp only [Bind.bind, EStateM.bind, hx] at hb; cases hb
  | ok a t =>
    rw [EStateM.bind_of_ok hx] at hb
    rw [EStateM.bind_of_ok (h s a t hx)]
    exact hf a t b u hb

theorem Extends.bind_right (x : EStateM Failure σ α) {f k : α → EStateM Failure σ β}
    (hf : ∀ a, Extends (f a) (k a)) : Extends (x >>= f) (x >>= k) :=
  (Extends.refl x).bind hf

/-- A loop with a greater budget, whose iterations may do with more as well. -/
theorem Extends.loop {isDone : σ → Bool} {ifDone : β}
    {iterate more : α → EStateM Failure σ (Turn α β)} (h : ∀ a, Extends (iterate a) (more a))
    {n m : Nat} (le : n ≤ m) (a : α) :
    Extends (Statewalk.loop isDone ifDone iterate n a) (Statewalk.loop isDone ifDone more m a) := by
  -- On the lesser budget: the greater one has at least as many iterations left.
  induction n generalizing m a with
  | zero => exact fun _ _ _ hb => nomatch hb
  | succ n ih =>
    obtain ⟨m, rfl⟩ : ∃ k, m = k + 1 := ⟨m - 1, by omega⟩
    intro s b t hb
    cases hs : isDone s with
    | true => rwa [loop_succ_of_done hs] at hb ⊢
    | false =>
      rw [loop_succ_of_not_done hs] at hb ⊢
      refine (h a).bind ?_ s b t hb
      rintro (c | c)
      · exact ih (by omega) c
      · exact .refl _

/-- With every budget from some one on, the run ends with the same outcome in the same state. -/
def Ends (x : Nat → EStateM Failure σ α) (s : σ) (a : α) (t : σ) : Prop :=
  ∃ enough, ∀ budget, enough ≤ budget → x budget s = .ok a t

/-- Runs with more budget extend those with less. -/
def Steady (x : Nat → EStateM Failure σ α) : Prop :=
  ∀ n m, n ≤ m → Extends (x n) (x m)

/-- A steady run that attains something within some budget ends in a state where it holds. -/
theorem Attains.ends {x : Nat → EStateM Failure σ α} (steady : Steady x) {stands : σ → ρ → Prop}
    {p : ρ} {post : α → ρ → Prop} {budget : Nat} (h : Attains stands (x budget) p post) {s : σ}
    (hs : stands s p) : ∃ a t q, Ends x s a t ∧ stands t q ∧ post a q := by
  obtain ⟨a, t, q, ht, stand, hpost⟩ := h s hs
  exact ⟨a, t, q, ⟨budget, fun m le => steady budget m le s a t ht⟩, stand, hpost⟩

section Strategies

variable {H E P L : Type} [Engine E] [Checkable E P] [Listener E P L] [Heuristic H E P]

theorem DepthFirst.steady_run : Steady (DepthFirst.run (E := E) (P := P) (L := L)) := by
  intro n m le
  -- Only the loop uses the budget; what comes before it is the same in both runs.
  apply Extends.bind_right
  intro _
  refine Extends.bind ?_ fun _ => .refl _
  apply Extends.bind_right
  intro _
  apply Extends.bind_right
  intro _
  refine Extends.bind ?_ fun _ => .refl _
  exact Extends.loop (fun _ => .refl _) le false

theorem BestFirst.expandAndGoOn_extends {n m : Nat} (le : n ≤ m) :
    Extends (BestFirst.expandAndGoOn (H := H) (E := E) (P := P) (L := L) n) (expandAndGoOn m) :=
  Extends.bind (Extends.loop (fun _ => .refl _) le ()) fun _ => .refl _

theorem BestFirst.expandBest_extends {n m : Nat} (le : n ≤ m) :
    Extends (BestFirst.expandBest (H := H) (E := E) (P := P) (L := L) n ()) (expandBest m ()) := by
  apply Extends.bind_right
  intro s
  cases s.strategy.frontier.pop? with
  | none => exact .refl _
  | some popped =>
    -- Taking a state out of the queue and returning to it needs no budget.
    apply Extends.bind_right
    intro _
    apply Extends.bind_right
    intro _
    apply Extends.bind_right
    intro _
    apply Extends.bind_right
    intro _
    exact expandAndGoOn_extends le

theorem BestFirst.steady_run : Steady (BestFirst.run (H := H) (E := E) (P := P) (L := L)) := by
  intro n m le
  apply Extends.bind_right
  intro _
  refine Extends.bind ?_ fun _ => .refl _
  apply Extends.bind_right
  intro _
  apply Extends.bind_right
  intro _
  apply Extends.bind_right
  intro _
  apply Extends.bind_right
  intro _
  apply Extends.bind_right
  intro _
  -- The first loop expands the initial state, the second one the queued states.
  refine Extends.bind (Extends.loop (fun _ => .refl _) le ()) fun stop => ?_
  cases stop with
  | some _ => exact .refl _
  | none =>
    refine Extends.bind ?_ fun _ => .refl _
    exact Extends.loop (fun _ => expandBest_extends le) le ()

end Strategies

end Statewalk
