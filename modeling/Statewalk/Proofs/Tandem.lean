import Statewalk.Proofs.Assurance

/-! # Operations in tandem

Two operations run side by side, each on a state of its own.  `Tandem` says that from related states
both succeed with the same result or fail in the same way, and leave related states.  It is composed
along `>>=` as `Ensures` is, and `Tandem.loop` reduces two loops to one iteration of each.  What one of
the two ensures by itself can be added (`Tandem.and_left`).
-/

namespace Statewalk

variable {σ τ α β : Type}

/-- Both succeeded with the same result, or both failed in the same way. -/
inductive Matched (S : α → σ → τ → Prop) (F : σ → τ → Prop) :
    EStateM.Result Failure σ α → EStateM.Result Failure τ α → Prop where
  | ok {a : α} {s : σ} {t : τ} : S a s t → Matched S F (.ok a s) (.ok a t)
  | error {f : Failure} {s : σ} {t : τ} : F s t → Matched S F (.error f s) (.error f t)

theorem Matched.exists_ok {S : α → σ → τ → Prop} {F : σ → τ → Prop} {a : α} {s : σ}
    {y : EStateM.Result Failure τ α} (h : Matched S F (.ok a s) y) : ∃ t, y = .ok a t ∧ S a s t := by
  cases h with
  | ok after => exact ⟨_, rfl, after⟩

/-- From states that `R` relates, the operations succeed with the same result and states that `S`
    relates, or fail in the same way with states that `F` relates. -/
def Tandem (R : σ → τ → Prop) (x : EStateM Failure σ α) (y : EStateM Failure τ α)
    (S : α → σ → τ → Prop) (F : σ → τ → Prop) : Prop :=
  ∀ s t, R s t → Matched S F (x s) (y t)

namespace Tandem

variable {R R' : σ → τ → Prop} {x : EStateM Failure σ α} {y : EStateM Failure τ α}
  {S S' : α → σ → τ → Prop} {T : β → σ → τ → Prop} {F : σ → τ → Prop}

theorem pure {a : α} (h : ∀ s t, R s t → S a s t) : Tandem R (Pure.pure a) (Pure.pure a) S F :=
  fun s t hst => .ok (h s t hst)

theorem bind {f : α → EStateM Failure σ β} {k : α → EStateM Failure τ β} (h : Tandem R x y S F)
    (hf : ∀ a, Tandem (S a) (f a) (k a) T F) : Tandem R (x >>= f) (y >>= k) T F := by
  intro s t hst
  have first := h s t hst
  simp only [Bind.bind, EStateM.bind]
  generalize x s = p at first ⊢
  generalize y t = q at first ⊢
  cases first with
  | ok after => exact hf _ _ _ after
  | error after => exact .error after

theorem imp (h : Tandem R x y S F) (imp : ∀ a s t, S a s t → S' a s t) : Tandem R x y S' F := by
  intro s t hst
  have first := h s t hst
  generalize x s = p at first ⊢
  generalize y t = q at first ⊢
  cases first with
  | ok after => exact .ok (imp _ _ _ after)
  | error after => exact .error after

theorem of_imp (h : Tandem R x y S F) (imp : ∀ s t, R' s t → R s t) : Tandem R' x y S F :=
  fun s t hst => h s t (imp s t hst)

/-- Operations that look at their own states first. -/
theorem get {f : σ → EStateM Failure σ β} {k : τ → EStateM Failure τ β}
    (h : ∀ s t, R s t → Tandem (fun s' t' => s' = s ∧ t' = t) (f s) (k t) T F) :
    Tandem R (MonadState.get >>= f) (MonadState.get >>= k) T F :=
  fun s t hst => h s t hst s t ⟨rfl, rfl⟩

/-- What the first operation ensures whatever the second does can be added. -/
theorem and_left {pre : σ → Prop} {post : α → σ → Prop} {fails : Failure → σ → Prop}
    (h : Tandem R x y S F) (ensures : Ensures pre x post fails) :
    Tandem (fun s t => R s t ∧ pre s) x y (fun a s t => S a s t ∧ post a s) F := by
  rintro s t ⟨hst, hs⟩
  have first := h s t hst
  have alone := ensures s hs
  generalize x s = p at first alone ⊢
  generalize y t = q at first ⊢
  cases first with
  | ok after => exact .ok ⟨after, alone⟩
  | error after => exact .error after

/-- What two iterations lead to: both loops go on with their invariant, or both stop. -/
def onTurn (inv : α → σ → τ → Prop) (post : β → σ → τ → Prop) : Turn α β → σ → τ → Prop
  | .again a => inv a
  | .stop b => post b

theorem loop {isDone : σ → Bool} {isDone' : τ → Bool} {ifDone : β}
    {iterate : α → EStateM Failure σ (Turn α β)} {iterate' : α → EStateM Failure τ (Turn α β)}
    (inv : α → σ → τ → Prop) (same : ∀ a s t, inv a s t → isDone s = isDone' t)
    (finish : ∀ a s t, inv a s t → T ifDone s t) (spent : ∀ a s t, inv a s t → F s t)
    (step : ∀ a, Tandem (inv a) (iterate a) (iterate' a) (onTurn inv T) F) (budget : Nat) (a : α) :
    Tandem (inv a) (Statewalk.loop isDone ifDone iterate budget a)
      (Statewalk.loop isDone' ifDone iterate' budget a) T F := by
  induction budget generalizing a with
  | zero => exact fun s t hst => .error (spent a s t hst)
  | succ budget ih =>
    intro s t hst
    have both := same a s t hst
    cases done : isDone s with
    | true =>
      rw [loop_succ_of_done done, loop_succ_of_done (both.symm.trans done)]
      exact .ok (finish a s t hst)
    | false =>
      rw [loop_succ_of_not_done done, loop_succ_of_not_done (both.symm.trans done)]
      refine (step a).bind ?_ s t hst
      rintro (b | b)
      · exact ih b
      · exact .pure fun _ _ h => h

end Tandem

end Statewalk
