import Statewalk.Proofs.Disciplines

/-! # Depths that are told

A strategy that set its depth anew announces an event that tells it before it does anything else, and
before it ends.  `Bookkeeping` lists what there is to prove of the things that a search does for
predicates that know whether the depth was told.  Every strategy keeps such books, and the outcome of
its run is read off the run as it was when its end was announced.
-/

namespace Statewalk

section Bookkeeping

variable {H E P L : Type} [Engine E] [Listener E P L]

open Search

/-- What there is to prove of the things that a search does.  Its books are `settled` while the depth
    is the one that was told last and `pending` while it need not be; it is `ready` until its start is
    announced and `ended` once its end was.  Nothing is said of a run that fails. -/
structure Bookkeeping (ready pending settled ended : Search E P L → Prop) : Prop where
  prepare : ∀ s t, ready s → Quiet s t → ready t
  await : ∀ s t, pending s → Quiet s t → pending t
  unsettle : ∀ s, settled s → pending s
  quiet : ∀ s t, settled s → Quiet s t → t.run.depth = s.run.depth → settled t
  start : Ensures ready (announce .searchStarted) (fun _ => settled) fun _ _ => True
  tell : ∀ event, event.tellsDepth = true → event ≠ .searchStarted →
    Ensures pending (announce event) (fun _ => settled) fun _ _ => True
  remark : ∀ event, event.tellsDepth = false → event ≠ .searchFinished → Keeps settled (announce event)
  finish : Ensures settled (announce .searchFinished) (fun _ => ended) fun _ _ => True
  close : ∀ s done matching query, ended s →
    ended { s with run := { s.run with done, matching, lastQuery := query } }

namespace Bookkeeping

variable {α : Type} {ready pending settled ended : Search E P L → Prop}
  (books : Bookkeeping ready pending settled ended)

include books

theorem keeps_update {f : Run E P → α × Run E P} (silent : ∀ r : Run E P, r.Silent (f r).2)
    (depth : ∀ r : Run E P, (f r).2.depth = r.depth) : Keeps settled (update f) :=
  fun s h => books.quiet s _ h ⟨rfl, rfl, silent s.run⟩ (depth s.run)

theorem keeps_change {f : Run E P → Run E P} (silent : ∀ r : Run E P, r.Silent (f r))
    (depth : ∀ r : Run E P, (f r).depth = r.depth) : Keeps settled (change f) :=
  fun s h => books.quiet s _ h ⟨rfl, rfl, silent s.run⟩ (depth s.run)

theorem keeps_isNew : Keeps settled isNew := by
  intro s h
  unfold isNew onRun
  obtain ⟨answer, depths, query, asked, -⟩ | ⟨f, failed, -⟩ := Run.isNew_cases s.run
  · rw [asked]
    exact books.quiet s _ h ⟨rfl, rfl, ⟨rfl, rfl, rfl⟩⟩ rfl
  · rw [failed]
    trivial

theorem keeps_checkProperties [Checkable E P] : Keeps settled (update Run.checkProperties) := by
  refine books.keeps_update .checkProperties fun r => ?_
  unfold Run.checkProperties
  split
  split <;> rfl

theorem keeps_forward [Checkable E P] : Keeps settled forward := by
  refine Keeps.bind (books.keeps_change (fun _ => ⟨rfl, rfl, rfl⟩) fun _ => rfl) ?_
  intro _
  apply Keeps.bind (books.keeps_update .stepForward fun r => by rw [Run.stepForward_eq])
  intro moved
  apply Keeps.bind books.keeps_checkProperties
  exact fun _ => .pure _

theorem keeps_backtrack : Keeps settled backtrack := by
  refine Keeps.bind (books.keeps_change (fun _ => ⟨rfl, rfl, rfl⟩) fun _ => rfl) ?_
  intro _
  refine books.keeps_update (fun r => ?_) fun _ => rfl
  exact {
    bulletins := by simp [Run.stepBack, Run.record, Entry.bulletin?]
    remarks := by simp [Run.stepBack, Run.record, Entry.remark?] }

/-- The books at each juncture: a move that was counted is to be told. -/
def state (ready pending settled : Search E P L → Prop) : Juncture → Search E P L → Prop
  | .ready | .placed => ready
  | .level | .stepped | .left => settled
  | .entered | .rejoined | .returned => pending

theorem excursion [Checkable E P] : Excursion (fun _ => True) (fun _ => True)
    (fun a _ => state ready pending settled a) ended fun _ _ => True where
  prepare s r h errand := books.prepare s _ h ⟨rfl, rfl, errand.silent⟩
  place s h := books.prepare s _ h ⟨rfl, rfl, ⟨rfl, rfl, rfl⟩⟩
  start := books.start
  narrow _ _ _ h _ := h
  turn _ h _ := h
  calm _ _ h _ := h
  errand _ s r h errand := books.quiet s _ h ⟨rfl, rfl, errand.silent⟩ errand.depth
  ask _ := books.keeps_isNew
  forward b := by
    apply Ensures.imp (books.keeps_forward : Keeps settled _)
    intro moved s h
    cases moved <;> exact h
  descend _ := Ensures.of_imp (keeps_descend books.await) books.unsettle
  backtrack f := by
    apply Ensures.imp (books.keeps_backtrack : Keeps settled _)
    intro moved s h
    cases moved <;> exact h
  ascend _ := Ensures.of_imp (keeps_ascend books.await) books.unsettle
  check _ _ := books.keeps_checkProperties
  tell p a event due := by
    cases a with
    | entered | rejoined | returned =>
      cases due
      exact books.tell _ rfl (by decide)
    | _ => cases due
  remark _ event silent other := books.remark event silent other
  finish := books.finish
  rematch s h := books.close s s.run.done true none h
  close s h := books.close s true s.run.matching s.run.lastQuery h
  home _ _ := trivial
  base _ _ _ _ := ⟨trivial, trivial⟩
  settle s depth h _ := books.prepare s _ h ⟨rfl, rfl, ⟨rfl, rfl, rfl⟩⟩
  saved _ _ _ _ _ := trivial
  restore _ snapshot strategy _ := Ensures.of_imp (keeps_restore books.await snapshot strategy) books.unsettle
  rechoose _ _ s h := books.await s _ h ⟨rfl, rfl, ⟨rfl, rfl, rfl⟩⟩
  bare _ _ _ := trivial
  unable _ _ _ _ := trivial

end Bookkeeping

variable [Checkable E P] [Heuristic H E P]

/-- Whatever the strategy, its outcome is read off the run as it ended. -/
theorem Strategy.ensures_run_ended {ready pending settled ended : Search E P L → Prop}
    (books : Bookkeeping ready pending settled ended) (a : Strategy H E) (budget : Nat) :
    Ensures ready (a.run budget) (fun o t => ended t ∧ o.Of t.run) fun _ _ => True :=
  (a.ensures_run_abiding books.excursion (fun _ _ _ _ _ _ => trivial) (fun _ _ => trivial) budget).imp
    fun _ _ h => ⟨h.1, h.2.2⟩

/-! ## What only announcements change -/

section Conserved

variable {I J : Search E P L → Prop} (conserved : Conserved I) (quiet : ∀ s t, J s → Quiet s t → J t)
  (started : Ensures J (announce (E := E) (P := P) (L := L) .searchStarted) (fun _ => I) fun _ _ => True)

include conserved quiet started

omit [Checkable E P] [Heuristic H E P] in
theorem Search.Conserved.books : Bookkeeping J I I I where
  prepare := quiet
  await := conserved.quiet
  unsettle _ h := h
  quiet s t h silent _ := conserved.quiet s t h silent
  start := started
  tell event _ later := conserved.announced event later
  remark event silent _ := conserved.announced event (by rintro rfl; cases silent)
  finish := conserved.announced _ (by decide)
  close s _ _ _ h := conserved.quiet s _ h ⟨rfl, rfl, ⟨rfl, rfl, rfl⟩⟩

omit [Heuristic H E P] in
/-- What holds from the first announcement on holds at the end of the run. -/
theorem DepthFirst.ensures_conserved (budget : Nat) :
    Ensures J (DepthFirst.run budget) (fun _ => I) fun _ _ => True :=
  (DepthFirst.ensures_run_abiding (conserved.books quiet started).excursion.toCourse (fun _ _ => trivial)
    budget).imp fun _ _ h => h.1

@[inherit_doc DepthFirst.ensures_conserved]
theorem BestFirst.ensures_conserved (budget : Nat) :
    Ensures (fun x => J x.search) (BestFirst.run budget : ExpeditionM H E P L Outcome) (fun _ x => I x.search)
      fun _ _ => True :=
  (BestFirst.ensures_run_abiding (conserved.books quiet started).excursion (fun _ _ _ _ _ _ => trivial)
    (fun _ _ => trivial) budget).imp fun _ _ h => h.1

end Conserved

end Bookkeeping

end Statewalk
