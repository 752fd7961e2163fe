import Statewalk.Proofs.Frontiers
import Statewalk.Proofs.Restraint
import Statewalk.Strategy.BestFirst

/-! # Operations of a best-first search

How judgements about operations on a search are carried over to an expedition, whose strategy they leave
alone.
-/

namespace Statewalk

namespace BestFirst

variable {H E P L : Type} [Engine E] {α β : Type}

section Lifting

variable {pre : Search E P L → Prop} {post : α → Search E P L → Prop}
  {fail : Failure → Search E P L → Prop} {x : SearchM E P L α}

theorem ensures_onSearch (h : Ensures pre x post fail) (kept : BestFirst H E → Prop) :
    Ensures (fun s => pre s.search ∧ kept s.strategy) (onSearch x)
      (fun a s => post a s.search ∧ kept s.strategy) fun f s => fail f s.search := by
  intro s hs
  have after := h s.search hs.1
  unfold onSearch
  cases hx : x s.search with
  | ok a t =>
    rw [hx] at after
    exact ⟨after, hs.2⟩
  | error f t =>
    rw [hx] at after
    exact after

theorem ensures_onSearch_alone (h : Ensures pre x post fail) :
    Ensures (fun s : Expedition H E P L => pre s.search) (onSearch x) (fun a s => post a s.search)
      fun f s => fail f s.search :=
  ((ensures_onSearch h fun _ => True).of_imp fun _ hs => ⟨hs, trivial⟩).imp fun _ _ hs => hs.1

end Lifting

/-- The current state is offered by its snapshot, and the queue takes it or stays as it is; or the engine
    has no snapshot, or the heuristic fails. -/
theorem offerCurrent_eq [Heuristic H E P] (s : Expedition H E P L) :
    (∃ strategy, offerCurrent s = .ok false { s with strategy } ∧
        (∃ snapshot, Engine.snapshot? s.search.run.engine = some snapshot) ∧
        strategy.frontier = s.strategy.frontier) ∨
      (∃ strategy key queued, offerCurrent s = .ok true { s with strategy } ∧
        Engine.snapshot? s.search.run.engine = some queued.snapshot ∧
        s.strategy.frontier.offer? s.search.run.config.queueLimit key queued = some strategy.frontier) ∨
      (Engine.snapshot? s.search.run.engine = none ∧ offerCurrent s = .error (.unsupported name) s) ∨
      ∃ fault, (Heuristic.priority s.search.run s.strategy.heuristic).1 = .error fault ∧
        offerCurrent s = .error (.fault fault) s := by
  simp only [offerCurrent, EStateM.get_bind_apply]
  cases saved : Engine.snapshot? s.search.run.engine with
  | none => exact .inr (.inr (.inl ⟨rfl, rfl⟩))
  | some snapshot =>
    simp only
    cases ranked : (Heuristic.priority s.search.run s.strategy.heuristic).1 with
    | error fault => exact .inr (.inr (.inr ⟨fault, rfl, rfl⟩))
    | ok priority =>
      simp only
      cases offered : Frontier.offer? s.search.run.config.queueLimit
          { priority := priority, number := s.strategy.offered }
          { snapshot := snapshot, state := Engine.stateId s.search.run.engine } s.strategy.frontier with
      | none => exact .inl ⟨_, rfl, ⟨snapshot, rfl⟩, rfl⟩
      | some frontier => exact .inr (.inl ⟨_, _, _, rfl, rfl, offered⟩)

/-- What is queued afterwards was queued before, or is the snapshot of the current state. -/
theorem offerCurrent_cases [Heuristic H E P] (s : Expedition H E P L) :
    (∃ stored strategy snapshot, offerCurrent s = .ok stored { s with strategy } ∧
        Engine.snapshot? s.search.run.engine = some snapshot ∧
        strategy.frontier.size ≤ s.strategy.frontier.size + 1 ∧
        ∀ e ∈ strategy.frontier.entries,
          e.2.snapshot = snapshot ∨ e ∈ s.strategy.frontier.entries) ∨
      offerCurrent s = .error (.unsupported name) s ∨
      ∃ fault, (Heuristic.priority s.search.run s.strategy.heuristic).1 = .error fault ∧
        offerCurrent s = .error (.fault fault) s := by
  obtain ⟨strategy, lost, ⟨snapshot, saved⟩, same⟩ | ⟨strategy, key, queued, won, saved, offered⟩ |
    ⟨-, unsupported⟩ | failed := offerCurrent_eq s
  · refine .inl ⟨false, strategy, snapshot, lost, saved, ?_, ?_⟩
    · rw [same]
      exact Nat.le_succ _
    · rw [same]
      exact fun e member => .inr member
  · refine .inl ⟨true, strategy, queued.snapshot, won, saved, Frontier.size_of_offer? offered, ?_⟩
    intro e member
    cases Frontier.mem_of_offer? offered member with
    | inl new => exact .inl (new ▸ rfl)
    | inr old => exact .inr old
  · exact .inr (.inl unsupported)
  · exact .inr (.inr failed)

/-- The search is as `J` says, and all queued snapshots are genuine. -/
structure Provided (genuine : Snapshot (Engine.Saved E) → Prop) (allowed : L → Prop)
    (J : Run E P → Prop) (x : Expedition H E P L) : Prop where
  search : x.search.Heeded allowed J
  queued : ∀ e ∈ x.strategy.frontier.entries, genuine e.2.snapshot

theorem Provided.imp {genuine : Snapshot (Engine.Saved E) → Prop} {allowed : L → Prop}
    {J K : Run E P → Prop} {x : Expedition H E P L} (h : Provided genuine allowed J x)
    (imp : ∀ r, J r → K r) : Provided genuine allowed K x :=
  ⟨h.search.imp imp, h.queued⟩

/-! ## Runs that lead to others -/

/-- If it succeeds, the operation leads from runs with `J` to runs with `K`, and all snapshots that it
    queues are genuine. -/
def Leads (genuine : Snapshot (Engine.Saved E) → Prop) (allowed : L → Prop) (J : Run E P → Prop)
    (x : ExpeditionM H E P L α) (K : α → Run E P → Prop) : Prop :=
  Ensures (Provided genuine allowed J) x (fun a => Provided genuine allowed (K a)) fun _ _ => True

section Leads

variable {genuine : Snapshot (Engine.Saved E) → Prop} {allowed : L → Prop} {J : Run E P → Prop}
  {K : α → Run E P → Prop} {x : ExpeditionM H E P L α}

namespace Leads

theorem pure {a : α} (h : ∀ r, J r → K a r) :
    Leads genuine allowed J (Pure.pure a : ExpeditionM H E P L α) K :=
  Ensures.pure fun _ hs => hs.imp h

theorem bind {f : α → ExpeditionM H E P L β} {M : β → Run E P → Prop}
    (hx : Leads genuine allowed J x K) (hf : ∀ a, Leads genuine allowed (K a) (f a) M) :
    Leads genuine allowed J (x >>= f) M :=
  Ensures.bind hx hf

theorem of_imp {I : Run E P → Prop} (hx : Leads genuine allowed J x K) (h : ∀ r, I r → J r) :
    Leads genuine allowed I x K :=
  Ensures.of_imp hx fun _ hs => hs.imp h

theorem of_exists {ι : Type} {I : ι → Run E P → Prop} (h : ∀ i, Leads genuine allowed (I i) x K) :
    Leads genuine allowed (fun r => ∃ i, I i r) x K := by
  intro s hs
  obtain ⟨i, hi⟩ := hs.search.run
  exact h i s ⟨⟨hs.search.listeners, hs.search.reporter, hi⟩, hs.queued⟩

theorem onSearch {x : SearchM E P L α} (h : Search.Leads allowed J x K) :
    Leads genuine allowed J (BestFirst.onSearch x : ExpeditionM H E P L α) K := by
  have lifted := ensures_onSearch h
    fun b : BestFirst H E => ∀ e ∈ b.frontier.entries, genuine e.2.snapshot
  exact (lifted.of_imp fun _ hs => ⟨hs.search, hs.queued⟩).imp fun _ _ hs => ⟨hs.1, hs.2⟩

theorem look {f : Run E P → α} :
    Leads genuine allowed J (BestFirst.look f : ExpeditionM H E P L α) fun a r => J r ∧ f r = a :=
  fun _ hs => ⟨⟨hs.search.listeners, hs.search.reporter, hs.search.run, rfl⟩, hs.queued⟩

theorem loop {ifDone : β} {iterate : α → ExpeditionM H E P L (Turn α β)} {M : β → Run E P → Prop}
    (inv : α → Run E P → Prop) (finish : ∀ a r, inv a r → r.done = true → M ifDone r)
    (step : ∀ a, Leads genuine allowed (fun r => inv a r ∧ r.done = false) (iterate a)
      (Ensures.onTurn inv M))
    (budget : Nat) (a : α) :
    Leads genuine allowed (inv a) (Statewalk.loop (·.search.run.done) ifDone iterate budget a) M := by
  refine Ensures.loop (fun a => Provided genuine allowed (inv a)) ?_ (fun _ _ _ => trivial) ?_ budget a
  · exact fun a s hs done => ⟨⟨hs.search.listeners, hs.search.reporter, finish a _ hs.search.run done⟩,
      hs.queued⟩
  · intro a
    apply (Ensures.of_imp (step a) fun s hs =>
      ⟨⟨hs.1.search.listeners, hs.1.search.reporter, hs.1.search.run, hs.2⟩, hs.1.queued⟩).imp
    intro turn s h
    cases turn <;> exact h

end Leads

variable [Heuristic H E P] (saved : ∀ r, J r → ∀ s, Engine.snapshot? r.engine = some s → genuine s)

include saved

theorem leads_offerCurrent :
    Leads genuine allowed J (offerCurrent : ExpeditionM H E P L Bool) fun _ => J := by
  intro s hs
  obtain ⟨stored, strategy, snapshot, offered, made, -, queued⟩ | unsupported | ⟨fault, -, failed⟩ :=
    offerCurrent_cases s
  · rw [offered]
    refine ⟨hs.search, ?_⟩
    intro e member
    cases queued e member with
    | inl new => exact new ▸ saved _ hs.search.run _ made
    | inr old => exact hs.queued e old
  · rw [unsupported]
    trivial
  · rw [failed]
    trivial

theorem leads_store [Listener E P L]
    (announced : Search.Leads (L := L) allowed J (Search.announce .stateStored) fun _ => J) :
    Leads genuine allowed J (store : ExpeditionM H E P L Unit) fun _ => J := by
  apply Leads.bind (leads_offerCurrent saved)
  intro stored
  split
  · exact .onSearch announced
  · exact .pure fun _ => id

end Leads

end BestFirst

end Statewalk
