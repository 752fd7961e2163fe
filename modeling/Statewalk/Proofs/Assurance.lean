import Statewalk.Strategy.Loop

/-! # Operations that may fail

`Ensures` says what holds after an operation, whether it succeeds or fails.  It is composed along
`>>=`, and `Ensures.loop` reduces a loop to one of its iterations; a loop that spends its budget is
one that failed.  `Ensures.bind_congr` and `loop_eq_bind` say when two operations are the same.
-/

namespace Statewalk

variable {σ α β : Type}

theorem exists_ok_of_check {x : EStateM.Result Failure σ α} {p : α → σ → Prop}
    [∀ a t, Decidable (p a t)] (checked : (match x with
      | .ok a t => decide (p a t)
      | .error _ _ => false) = true) : ∃ a t, x = .ok a t ∧ p a t := by
  cases x with
  | ok a t => exact ⟨a, t, rfl, of_decide_eq_true checked⟩
  | error f t => cases checked

theorem exists_error_of_check {x : EStateM.Result Failure σ α} {f : Failure}
    (checked : (match x with
      | .ok _ _ => false
      | .error f' _ => decide (f' = f)) = true) : ∃ t, x = .error f t := by
  cases x with
  | ok a t => cases checked
  | error f' t => exact ⟨t, by rw [of_decide_eq_true checked]⟩

/-- From every state with `pre`, the operation succeeds with `post` or fails with `fail`. -/
def Ensures (pre : σ → Prop) (x : EStateM Failure σ α) (post : α → σ → Prop)
    (fail : Failure → σ → Prop) : Prop :=
  ∀ s, pre s →
    match x s with
    | .ok a t => post a t
    | .error f t => fail f t

namespace Ensures

variable {pre : σ → Prop} {x : EStateM Failure σ α} {f : α → EStateM Failure σ β}
  {post : α → σ → Prop} {post' : β → σ → Prop} {fail : Failure → σ → Prop}

theorem pure {a : α} (h : ∀ s, pre s → post a s) : Ensures pre (Pure.pure a) post fail :=
  h

theorem throw {failure : Failure} (h : ∀ s, pre s → fail failure s) :
    Ensures pre (MonadExcept.throw failure) post fail :=
  h

theorem bind (h : Ensures pre x post fail) (hf : ∀ a, Ensures (post a) (f a) post' fail) :
    Ensures pre (x >>= f) post' fail := by
  intro s hs
  have first := h s hs
  simp only [Bind.bind, EStateM.bind]
  cases hx : x s with
  | ok a t =>
    rw [hx] at first
    exact hf a t first
  | error failure t =>
    rw [hx] at first
    exact first

theorem imp (h : Ensures pre x post fail) {weaker : α → σ → Prop}
    (imp : ∀ a s, post a s → weaker a s) : Ensures pre x weaker fail := by
  intro s hs
  have first := h s hs
  cases hx : x s with
  | ok a t =>
    rw [hx] at first
    exact imp a t first
  | error failure t =>
    rw [hx] at first
    exact first

theorem imp_fail (h : Ensures pre x post fail) {weaker : Failure → σ → Prop}
    (imp : ∀ f s, fail f s → weaker f s) : Ensures pre x post weaker := by
  intro s hs
  have first := h s hs
  cases hx : x s with
  | ok a t =>
    rw [hx] at first
    exact first
  | error failure t =>
    rw [hx] at first
    exact imp failure t first

theorem of_imp {stronger : σ → Prop} (h : Ensures pre x post fail)
    (imp : ∀ s, stronger s → pre s) : Ensures stronger x post fail :=
  fun s hs => h s (imp s hs)

theorem of_eq {s : σ} (h : Ensures pre x post fail) (hs : pre s) : Ensures (· = s) x post fail :=
  h.of_imp fun _ eq => eq ▸ hs

theorem of_ok (h : Ensures pre x post fail) {s t : σ} {a : α} (hs : pre s) (ran : x s = .ok a t) :
    post a t := by
  have after := h s hs
  rw [ran] at after
  exact after

/-- What cannot fail returns. -/
theorem exists_ok (h : Ensures pre x post fail) {s : σ} (hs : pre s) (unfailing : ∀ f t, ¬ fail f t) :
    ∃ a t, x s = .ok a t ∧ post a t := by
  have after := h s hs
  cases ran : x s with
  | ok a t =>
    rw [ran] at after
    exact ⟨a, t, rfl, after⟩
  | error f t =>
    rw [ran] at after
    exact absurd after (unfailing f t)

/-- What is known whatever the state is can be used at once. -/
theorem of_known {known : Prop} (h : known → Ensures pre x post fail) :
    Ensures (fun s => known ∧ pre s) x post fail :=
  fun s hs => h hs.1 s hs.2

theorem of_exists {ι : Type} {pre : ι → σ → Prop} (h : ∀ i, Ensures (pre i) x post fail) :
    Ensures (fun s => ∃ i, pre i s) x post fail := by
  rintro s ⟨i, hs⟩
  exact h i s hs

theorem of_or {pre' : σ → Prop} (h : Ensures pre x post fail) (h' : Ensures pre' x post fail) :
    Ensures (fun s => pre s ∨ pre' s) x post fail := by
  intro s hs
  cases hs with
  | inl hs => exact h s hs
  | inr hs => exact h' s hs

/-- An operation that looks at its own state first. -/
theorem get {f : σ → EStateM Failure σ β}
    (h : ∀ s, pre s → Ensures (· = s) (f s) post' fail) : Ensures pre (MonadState.get >>= f) post' fail :=
  fun s hs => h s hs s rfl

/-- An operation that replaces its state first. -/
theorem set {s : σ} {f : PUnit → EStateM Failure σ β} (h : Ensures (· = s) (f ⟨⟩) post' fail) :
    Ensures pre (MonadState.set s >>= f) post' fail :=
  fun _ _ => h s rfl

theorem modifying {f : σ → σ} {post : PUnit → σ → Prop} (h : ∀ s, pre s → post ⟨⟩ (f s)) :
    Ensures pre (modify f) post fail :=
  h

/-- What an iteration leads to: the loop goes on with its invariant or stops with its
    postcondition. -/
def onTurn (inv : α → σ → Prop) (post : β → σ → Prop) : Turn α β → σ → Prop
  | .again a => inv a
  | .stop b => post b

theorem loop {isDone : σ → Bool} {ifDone : β} {iterate : α → EStateM Failure σ (Turn α β)}
    (inv : α → σ → Prop) (finish : ∀ a s, inv a s → isDone s = true → post' ifDone s)
    (spent : ∀ a s, inv a s → fail .outOfFuel s)
    (step : ∀ a, Ensures (fun s => inv a s ∧ isDone s = false) (iterate a) (onTurn inv post') fail)
    (budget : Nat) (a : α) : Ensures (inv a) (Statewalk.loop isDone ifDone iterate budget a) post' fail := by
  induction budget generalizing a with
  | zero => exact fun s hs => spent a s hs
  | succ budget ih =>
    intro s hs
    cases hdone : isDone s with
    | true =>
      rw [loop_succ_of_done hdone]
      exact finish a s hs hdone
    | false =>
      rw [loop_succ_of_not_done hdone]
      refine (step a).bind ?_ s ⟨hs, hdone⟩
      rintro (b | b)
      · exact ih b
      · exact .pure fun _ h => h

/-- What every iteration keeps, a loop keeps. -/
theorem loop_invariant {isDone : σ → Bool} {ifDone : β} {iterate : α → EStateM Failure σ (Turn α β)}
    {inv : σ → Prop} (spent : ∀ s, inv s → fail .outOfFuel s)
    (step : ∀ a, Ensures inv (iterate a) (fun _ => inv) fail) (budget : Nat) (a : α) :
    Ensures inv (Statewalk.loop isDone ifDone iterate budget a) (fun _ => inv) fail := by
  refine loop (fun _ => inv) (fun _ _ hs _ => hs) (fun _ => spent) (fun a => ?_) budget a
  apply ((step a).of_imp fun _ hs => hs.1).imp
  intro turn s hs
  cases turn <;> exact hs

end Ensures

/-! ## Equal operations -/

section Equality

variable {α' : Type} {x : EStateM Failure σ α}

theorem EStateM.bind_congr_left {y : EStateM Failure σ α} {s : σ} (h : x s = y s)
    (f : α → EStateM Failure σ β) : (x >>= f) s = (y >>= f) s := by
  simp only [bind, EStateM.bind, h]

/-- Operations that go on in the same way from wherever the first part may lead. -/
theorem Ensures.bind_congr {pre : σ → Prop} {post : α → σ → Prop} {fail : Failure → σ → Prop} {s : σ}
    {f g : α → EStateM Failure σ β} (h : Ensures pre x post fail) (hs : pre s)
    (same : ∀ a t, post a t → f a t = g a t) : (x >>= f) s = (x >>= g) s := by
  have first := h s hs
  simp only [Bind.bind, EStateM.bind]
  cases ran : x s with
  | error f t => rfl
  | ok a t =>
    rw [ran] at first
    exact same a t first

/-- The end of an iteration, after what is still done when the loop stops. -/
def Turn.closing (close : β → EStateM Failure σ β) (b : α') : Turn α β → EStateM Failure σ (Turn α' β)
  | .again _ => pure (.again b)
  | .stop result => do return .stop (← close result)

theorem Turn.closing_pure :
    (Turn.closing pure () : Turn Unit β → EStateM Failure σ (Turn Unit β)) = pure := by
  funext turn
  cases turn <;> rfl

/-- Two loops whose iterations are the same, but for what the second does before it stops.  The invariant
    knows how many iterations are left. -/
theorem loop_eq_bind {isDone : σ → Bool} {ifDone : β} {iterate : α → EStateM Failure σ (Turn α β)}
    {iterate' : α' → EStateM Failure σ (Turn α' β)} {close : β → EStateM Failure σ β} {a : α} {b : α'}
    (inv : Nat → σ → Prop) (only : ∀ c, c = a) (idle : close ifDone = pure ifDone)
    (keeps : ∀ n, Ensures (inv (n + 1)) (iterate a) (Ensures.onTurn (fun _ => inv n) fun _ _ => True) fun _ _ => True)
    (same : ∀ n s, inv (n + 1) s → iterate' b s = (iterate a >>= Turn.closing close b) s) (n : Nat) {s : σ}
    (hs : inv n s) : loop isDone ifDone iterate' n b s = (loop isDone ifDone iterate n a >>= close) s := by
  induction n generalizing s with
  | zero => rfl
  | succ n ih =>
    simp only [bind, EStateM.bind] at ih ⊢
    cases done : isDone s with
    | true =>
      rw [loop_succ_of_done done, loop_succ_of_done done]
      exact (congrFun idle s).symm
    | false =>
      have next := keeps n s hs
      rw [loop_succ_of_not_done done, loop_succ_of_not_done done]
      simp only [bind, EStateM.bind, same n s hs]
      cases ran : iterate a s with
      | error f t => rfl
      | ok turn t =>
        rw [ran] at next
        cases turn with
        | again c =>
          -- Both go on, with one iteration less.
          cases only c
          exact ih next
        | stop result =>
          simp only [Turn.closing, bind, EStateM.bind, pure, EStateM.pure]
          cases close result t <;> rfl

end Equality

/-- An announcement is entered in the journal, and then the listeners are told of it. -/
theorem Search.ensures_announce_of_broadcast {E P L : Type} [Engine E] [Listener E P L] {event : Event}
    {I K : Search E P L → Prop} {post : Unit → Search E P L → Prop}
    {fail : Failure → Search E P L → Prop}
    (enter : ∀ s, I s → K { s with run := s.run.record (.announced (s.bulletin event)) })
    (told : Ensures K (broadcast event) post fail) : Ensures I (announce event) post fail :=
  (Ensures.modifying enter).bind fun _ => told

end Statewalk
