import Statewalk.Proofs.BestEntries
import Statewalk.Proofs.Disciplines
import Statewalk.Proofs.Minutes

/-! # What becomes of the queue

The run of a best-first search, told with all that is done to its queue: states are offered to it, and the
best one is taken out to be expanded.  `BestFirst.Deals` adds these dealings to what a search does otherwise,
and every run is a trail of such steps, whatever its listeners do.  What is true of the queue at each point
and between any two points follows from the steps alone.
-/

namespace Statewalk

open Search (Does)

/-! ## Operations that store and restore nothing -/

/-- Neither is the storing of a state announced nor a snapshot returned to. -/
def Occurrence.isPlain : Occurrence → Bool
  | .announce .stateStored => false
  | .move .restore => false
  | _ => true

theorem Occurrence.isPlain_announce {event : Event} (other : event ≠ .stateStored) :
    (Occurrence.announce event).isPlain = true := by
  cases event <;> first | rfl | exact absurd rfl other

namespace Search

variable {E P L : Type} [Engine E] [Checkable E P] [Listener E P L] {α β : Type}

/-- The operation consists of plain steps: what they keep, it keeps. -/
def Plain (x : SearchM E P L α) : Prop :=
  ∀ K : Search E P L → Prop, (∀ o s t, Does o s t → o.isPlain = true → K s → K t) →
    Ensures K x (fun _ => K) fun _ => K

namespace Plain

theorem pure (a : α) : Plain (Pure.pure a : SearchM E P L α) :=
  fun _ _ => .pure fun _ h => h

theorem bind {x : SearchM E P L α} {f : α → SearchM E P L β} (hx : Plain x) (hf : ∀ a, Plain (f a)) :
    Plain (x >>= f) :=
  fun K kept => (hx K kept).bind fun a => hf a K kept

theorem look (f : Run E P → α) : Plain (Search.look (L := L) f) :=
  fun _ _ _ h => h

theorem update {f : Run E P → α × Run E P} (chore : ∀ r : Run E P, r.Chore (f r).2) :
    Plain (Search.update (L := L) f) :=
  fun _ kept s h => kept _ s _ (.chore (chore s.run)) rfl h

theorem change {f : Run E P → Run E P} (chore : ∀ r : Run E P, r.Chore (f r)) :
    Plain (Search.change (L := L) f) :=
  fun _ kept s h => kept _ s _ (.chore (chore s.run)) rfl h

theorem onRun {x : RunM E P α} (chore : ∀ r : Run E P, Ensures (· = r) x (fun _ => r.Chore) fun _ => r.Chore) :
    Plain (Search.onRun (L := L) x) := by
  intro K kept s h
  have after := chore s.run s.run rfl
  unfold Search.onRun
  cases result : x s.run <;> rw [result] at after <;> exact kept _ s _ (.chore after) rfl h

theorem isNew : Plain (Search.isNew (E := E) (P := P) (L := L)) := by
  apply onRun
  rintro _ r rfl
  obtain ⟨answer, depths, query, asked, -⟩ | ⟨f, failed, -⟩ := Run.isNew_cases r
  · rw [asked]
    exact .of_eq rfl rfl rfl rfl rfl rfl rfl rfl
  · rw [failed]
    exact .refl r

theorem descend : Plain (Search.onRun (E := E) (P := P) (L := L) Run.descend) := by
  apply onRun
  rintro _ r rfl
  simp only [Run.descend, EStateM.get_bind_apply]
  cases addWords r.depth 1 with
  | ok depth => exact Run.Chore.of_eq rfl rfl rfl rfl rfl rfl rfl rfl
  | error f => exact Run.Chore.refl r

theorem ascend : Plain (Search.onRun (E := E) (P := P) (L := L) Run.ascend) := by
  apply onRun
  rintro _ r rfl
  simp only [Run.ascend, EStateM.get_bind_apply]
  by_cases root : r.depth = 0
  · rw [if_pos root]
    exact Run.Chore.refl r
  · rw [if_neg root]
    exact Run.Chore.of_eq rfl rfl rfl rfl rfl rfl rfl rfl

/-- Nobody who is told of an event stores a state by it. -/
theorem broadcast (event : Event) : Plain (Search.broadcast (E := E) (P := P) (L := L) event) := by
  intro K kept
  apply ensures_broadcast_of_calls (I := fun _ => K)
  intro number s l h there
  have told := kept _ s _ (.call event there) rfl h
  exact ⟨fun _ => told, fun _ _ => told⟩

theorem announce {event : Event} (other : event ≠ .stateStored) :
    Plain (Search.announce (E := E) (P := P) (L := L) event) := by
  intro K kept
  apply ensures_announce_of_broadcast _ (broadcast event K kept)
  exact fun s h => kept _ s _ (.announce event s) (Occurrence.isPlain_announce other) h

theorem pollProbe : Plain (Search.pollProbe (E := E) (P := P) (L := L)) := by
  apply bind (update fun _ => .of_eq rfl rfl rfl rfl rfl rfl rfl rfl)
  intro requested
  split
  · exact announce (by decide)
  · exact pure _

theorem announceConstraint (details : String) :
    Plain (Search.announceConstraint (E := E) (P := P) (L := L) details) := by
  have noted : Plain (Search.change (L := L) fun r : Run E P => { r with lastConstraint := some details }) :=
    change fun _ => .of_eq rfl rfl rfl rfl rfl rfl rfl rfl
  exact noted.bind fun _ => announce (by decide)

theorem announceMemoryLimit : Plain (Search.announceMemoryLimit (E := E) (P := P) (L := L)) :=
  bind (look _) fun _ => announceConstraint _

theorem announceViolation : Plain (Search.announceViolation (E := E) (P := P) (L := L)) := by
  apply bind (announce (by decide))
  intro _ K kept s h
  cases continues : s.run.config.continueOnViolation with
  | true =>
    have forgotten := kept _ s _ (.chore (.resetProperties s.run continues)) rfl h
    simpa [Bind.bind, EStateM.bind, Search.look, continues, Search.change] using forgotten
  | false => simpa [Bind.bind, EStateM.bind, Search.look, continues, Pure.pure, EStateM.pure] using h

theorem forward : Plain (Search.forward (E := E) (P := P) (L := L)) := by
  intro K kept s h
  have cleared := kept _ _ _ (.clear s) rfl h
  have stepped := kept _ _ _ (.forward _) rfl cleared
  exact kept _ _ _ (.check _) rfl stepped

theorem backtrack : Plain (Search.backtrack (E := E) (P := P) (L := L)) := by
  have forgotten : Plain (Search.change (E := E) (P := P) (L := L) Run.forgetQuery) :=
    change fun _ => .of_eq rfl rfl rfl rfl rfl rfl rfl rfl
  exact forgotten.bind fun _ K kept s h => kept _ _ _ (.backtrack s) rfl h

theorem launch (strategy : String) : Plain (Search.launch (E := E) (P := P) (L := L) strategy) := by
  intro K kept s h
  obtain ⟨r, launched, chore⟩ := launch_eq strategy s
  rw [launched]
  exact kept _ s _ (.chore chore) rfl h

theorem conclude (reason : StopReason) : Plain (Search.conclude (E := E) (P := P) (L := L) reason) :=
  bind (change .stop) fun _ => look _

end Plain

end Search

/-! ## The limit of the queue -/

section Limit

variable {E P L : Type} [Listener E P L]

/-- Listeners, whatever they are told, leave the limit of the queue as it is. -/
def Listener.KeepsQueueLimit (E P L : Type) [Listener E P L] : Prop :=
  ∀ (event : Event) (l : L) (r : Run E P),
    Ensures (· = (l, r)) (hear event) (fun _ s => s.2.config.queueLimit = r.config.queueLimit)
      fun _ s => s.2.config.queueLimit = r.config.queueLimit

theorem Listener.KeepsQueueLimit.tell (keeps : KeepsQueueLimit E P L) (event : Event) (l : L) (r : Run E P) :
    (Listener.tell event l r).run.config.queueLimit = r.config.queueLimit := by
  have maintains : Listener.Maintains (fun _ : L => True) fun r' : Run E P =>
      r'.config.queueLimit = r.config.queueLimit := by
    intro event l r' _ hr
    apply ((keeps event l r').imp _).imp_fail
    · exact fun _ _ h => ⟨trivial, h.trans hr⟩
    · exact fun _ _ h => ⟨trivial, h.trans hr⟩
  exact (Listener.tell_maintains maintains (fun _ _ hr _ => hr) event trivial rfl).2

theorem Listener.Lawful.keepsQueueLimit (lawful : Lawful E P L) : KeepsQueueLimit E P L := by
  intro event l r
  exact ((lawful event l r).imp fun _ _ h => h.2.queueLimit).imp_fail fun _ _ h => h.1.2.queueLimit

theorem Search.Does.queueLimit [Engine E] [Checkable E P] {o : Occurrence} {s t : Search E P L}
    (keeps : Listener.KeepsQueueLimit E P L) (h : Does o s t) :
    t.run.config.queueLimit = s.run.config.queueLimit := by
  cases h with
  | turn => rfl
  | forward => exact (Run.Entrusted.stepForward _).queueLimit
  | backtrack => rfl
  | restore => rfl
  | rechoose => rfl
  | check => exact (Run.Entrusted.checkProperties _).queueLimit
  | announce => rfl
  | call event there =>
    rw [run_heard]
    exact keeps.tell event _ s.run
  | clear => rfl
  | chore chore => rw [chore.config]

end Limit

namespace BestFirst

/-! ## Dealings -/

/-- What is done to the queue. -/
inductive Dealing (E : Type) [Engine E] where
  /-- The current state is offered. -/
  | offered (entry : Key × Queued E) (fate : Fate)
  /-- The start is taken out, to be expanded. -/
  | departed
  /-- The best state is taken out, to be returned to and expanded. -/
  | resumed (entry : Key × Queued E)

namespace Dealing

variable {E : Type} [Engine E]

/-- The entry that is offered. -/
def offer? : Dealing E → Option (Key × Queued E)
  | .offered entry _ => some entry
  | _ => none

def isDeparture : Dealing E → Bool
  | .departed => true
  | _ => false

def isResumption : Dealing E → Bool
  | .resumed _ => true
  | _ => false

/-- An entry that was in the queue had to make room. -/
def isEviction : Dealing E → Bool
  | .offered _ fate => fate = .displaced
  | _ => false

/-- The offered state was put into the queue. -/
def isStored : Dealing E → Bool
  | .offered _ fate => fate ≠ .refused
  | _ => false

end Dealing

variable {H E P L : Type} [Engine E]

/-- A point of a run, with what was just done to the queue. -/
structure Point (H E P L : Type) [Engine E] where
  expedition : Expedition H E P L
  dealing : Option (Dealing E) := none

namespace Point

/-- The queue. -/
def frontier (p : Point H E P L) : Frontier (Queued E) :=
  p.expedition.strategy.frontier

/-- The limit of the queue. -/
def limit (p : Point H E P L) : Option Nat :=
  p.expedition.search.run.config.queueLimit

/-- A state was put into the queue, and that is still to be announced. -/
def isPending (p : Point H E P L) : Bool :=
  p.dealing.any Dealing.isStored

end Point

/-- What was done to the queue, the latest first. -/
def dealings (h : List (Occurrence × Point H E P L)) : List (Dealing E) :=
  h.filterMap (·.2.dealing)

/-- The entries that were offered, the latest first. -/
def offers (h : List (Occurrence × Point H E P L)) : List (Key × Queued E) :=
  (dealings h).filterMap Dealing.offer?

/-- The strategy after an entry was offered. -/
def taking (limit : Option Nat) (entry : Key × Queued E) (heuristic : H) (b : BestFirst H E) : BestFirst H E where
  heuristic := heuristic
  frontier := b.frontier.offered limit entry
  offered := b.offered + 1
  stored := if b.frontier.fate limit entry.1 = .refused then b.stored else b.stored + 1

section Deals

variable [Checkable E P] [Listener E P L] [Heuristic H E P]

/-- The search after the best state was taken out of the queue. -/
def picking (entry : Key × Queued E) (rest : List (Key × Queued E)) (x : Expedition H E P L) : Expedition H E P L :=
  let note : Entry := .expanding (Named.name x.strategy.heuristic) entry.2.state rest.length
  { strategy := { x.strategy with frontier := ⟨rest⟩ }
    search := { x.search with run := x.search.run.record note } }

/-- The search after it was told to return to that state. -/
def resuming (entry : Key × Queued E) (rest : List (Key × Queued E)) (x : Expedition H E P L) : Expedition H E P L :=
  let y := picking entry rest x
  let r := { y.search.run with lastQuery := none, atViolation := false }
  { y with search := { y.search with run := (r.stepTo entry.2.snapshot).2 } }

/-- One step of a run.  When a state was put into the queue, that is announced next; nothing else makes
    this announcement, and nothing but the best queued state is returned to. -/
inductive Deals : Occurrence → Point H E P L → Point H E P L → Prop where
  | search {o : Occurrence} {p : Point H E P L} {s : Search E P L} : p.isPending = false → o.isPlain = true →
      Does o p.expedition.search s → Deals o p { expedition := { p.expedition with search := s } }
  | store {p : Point H E P L} {s : Search E P L} : p.isPending = true →
      Does (.announce .stateStored) p.expedition.search s →
      Deals (.announce .stateStored) p { expedition := { p.expedition with search := s } }
  | offer {p : Point H E P L} {entry : Key × Queued E} {heuristic : H} : p.isPending = false →
      entry.1.number = p.expedition.strategy.offered →
      Heuristic.priority p.expedition.search.run p.expedition.strategy.heuristic =
        (.ok entry.1.priority, heuristic) →
      Engine.snapshot? p.expedition.search.run.engine = some entry.2.snapshot →
      entry.2.state = Engine.stateId p.expedition.search.run.engine →
      Deals .chore p
        { expedition := { p.expedition with strategy := p.expedition.strategy.taking p.limit entry heuristic }
          dealing := some (.offered entry (p.frontier.fate p.limit entry.1)) }
  | depart {p : Point H E P L} {entry : Key × Queued E} {rest : List (Key × Queued E)} : p.isPending = false →
      p.frontier.entries = entry :: rest →
      Deals .chore p
        { expedition := { p.expedition with strategy := { p.expedition.strategy with frontier := ⟨rest⟩ } }
          dealing := some .departed }
  | resume {p : Point H E P L} {entry : Key × Queued E} {rest : List (Key × Queued E)} : p.isPending = false →
      p.frontier.entries = entry :: rest →
      Deals (.move .restore) p
        { expedition := resuming entry rest p.expedition, dealing := some (.resumed entry) }

variable {o : Occurrence} {p q : Point H E P L}

theorem Deals.limit_eq (keeps : Listener.KeepsQueueLimit E P L) (h : Deals o p q) : q.limit = p.limit := by
  cases h with
  | search _ _ does => exact does.queueLimit keeps
  | store _ does => exact does.queueLimit keeps
  | offer => rfl
  | depart => rfl
  | resume => rfl

/-! ## Runs are trails -/

/-- The run came from the start by steps.  The start was taken out of the queue so many times, and the
    storing of a state may be still to be announced. -/
def Sails (x₀ : Expedition H E P L) (departures : Nat) (pending : Bool) (x : Expedition H E P L) : Prop :=
  ∃ h d, Trail Deals { expedition := x₀ } h { expedition := x, dealing := d } ∧
    Point.isPending { expedition := x, dealing := d } = pending ∧
    (dealings h).countP Dealing.isDeparture = departures

variable {x₀ x : Expedition H E P L} {n : Nat} {α β : Type}

namespace Sails

theorem start (x : Expedition H E P L) : Sails x 0 false x :=
  ⟨[], none, .start, rfl, rfl⟩

theorem search (h : Sails x₀ n false x) {s : Search E P L} (plain : o.isPlain = true)
    (does : Does o x.search s) : Sails x₀ n false { x with search := s } := by
  obtain ⟨history, d, trail, settled, count⟩ := h
  exact ⟨_, none, .next trail (.search settled plain does), rfl, count⟩

theorem limit_eq (keeps : Listener.KeepsQueueLimit E P L) {pending : Bool} (h : Sails x₀ n pending x) :
    x.search.run.config.queueLimit = x₀.search.run.config.queueLimit := by
  obtain ⟨history, d, trail, -⟩ := h
  have kept (o : Occurrence) (p q : Point H E P L) (deals : Deals o p q)
      (same : p.limit = x₀.search.run.config.queueLimit) : q.limit = x₀.search.run.config.queueLimit :=
    (deals.limit_eq keeps).trans same
  exact (trail.invariant kept rfl).1

end Sails

/-- The operation leaves the number of departures as it is. -/
def Sailing (x₀ : Expedition H E P L) (n : Nat) (x : ExpeditionM H E P L α) : Prop :=
  Ensures (Sails x₀ n false) x (fun _ => Sails x₀ n false) fun _ => Sails x₀ n false

/-- Plain operations leave the strategy alone. -/
theorem ensures_onSearch_plain {x : SearchM E P L α} (plain : Search.Plain x) (b : BestFirst H E) :
    Ensures (fun y => Sails x₀ n false y ∧ y.strategy = b) (onSearch x)
      (fun _ y => Sails x₀ n false y ∧ y.strategy = b) fun _ => Sails x₀ n false := by
  rintro y ⟨h, same⟩
  have after := plain (fun s => Sails x₀ n false { y with search := s })
    (fun _ _ _ does ordinary sails => sails.search ordinary does) y.search h
  unfold onSearch
  cases result : x y.search with
  | ok a t =>
    rw [result] at after
    exact ⟨after, same⟩
  | error f t =>
    rw [result] at after
    exact after

namespace Sailing

theorem pure (a : α) : Sailing x₀ n (Pure.pure a : ExpeditionM H E P L α) :=
  Ensures.pure fun _ h => h

theorem bind {x : ExpeditionM H E P L α} {f : α → ExpeditionM H E P L β} (hx : Sailing x₀ n x)
    (hf : ∀ a, Sailing x₀ n (f a)) : Sailing x₀ n (x >>= f) :=
  Ensures.bind hx hf

theorem look (f : Run E P → α) : Sailing x₀ n (BestFirst.look (H := H) (L := L) f) :=
  fun _ h => h

theorem onSearch {x : SearchM E P L α} (plain : Search.Plain x) :
    Sailing x₀ n (BestFirst.onSearch (H := H) x) := by
  intro y h
  exact (ensures_onSearch_plain plain y.strategy).imp (fun _ _ h => h.1) y ⟨h, rfl⟩

end Sailing

/-! ## Offers -/

/-- The current state is offered, or there is no snapshot of it or no priority. -/
theorem offerCurrent_deals (x : Expedition H E P L) (d : Option (Dealing E))
    (settled : Point.isPending { expedition := x, dealing := d } = false) :
    (∃ strategy entry fate,
      offerCurrent x = .ok (decide (fate ≠ Fate.refused)) { x with strategy } ∧
      strategy.frontier = x.strategy.frontier.offered x.search.run.config.queueLimit entry ∧
      fate = x.strategy.frontier.fate x.search.run.config.queueLimit entry.1 ∧
      Deals .chore { expedition := x, dealing := d }
        { expedition := { x with strategy }, dealing := some (.offered entry fate) }) ∨
    ∃ f, offerCurrent x = .error f x := by
  simp only [offerCurrent, EStateM.get_bind_apply]
  cases saved : Engine.snapshot? x.search.run.engine with
  | none => exact .inr ⟨_, rfl⟩
  | some snapshot =>
    rcases ranked : Heuristic.priority x.search.run x.strategy.heuristic with ⟨_ | priority, heuristic⟩
    · exact .inr ⟨_, rfl⟩
    · let entry : Key × Queued E :=
        ({ priority, number := x.strategy.offered }, { snapshot, state := Engine.stateId x.search.run.engine })
      have number : entry.1.number = x.strategy.offered := rfl
      have deal : Deals .chore { expedition := x, dealing := d } _ := .offer settled number ranked saved rfl
      refine .inl ⟨_, entry, _, ?_, rfl, rfl, deal⟩
      simp only [taking, Frontier.offered]
      -- The three fates differ in what becomes of the queue, and refusal in the answer.
      obtain ⟨fate, -, taken⟩ | ⟨_, fate, -, -, -, taken⟩ | ⟨fate, -, -, taken⟩ :=
        Frontier.offer?_cases x.search.run.config.queueLimit entry x.strategy.frontier
      all_goals
        have given : Frontier.offer? x.search.run.config.queueLimit
          { priority, number := x.strategy.offered }
          { snapshot, state := Engine.stateId x.search.run.engine } x.strategy.frontier = _ := taken
        simp only [Point.limit, fate, given, taken]
        rfl

theorem ensures_offerCurrent_sailing :
    Ensures (Sails x₀ n false) (offerCurrent (H := H) (E := E) (P := P) (L := L))
      (fun stored => Sails x₀ n stored) fun _ => Sails x₀ n false := by
  rintro x ⟨h, d, trail, settled, count⟩
  obtain ⟨strategy, entry, fate, offered, -, -, deals⟩ | ⟨f, failed⟩ := offerCurrent_deals x d settled
  · rw [offered]
    exact ⟨_, _, .next trail deals, rfl, count⟩
  · rw [failed]
    exact ⟨h, d, trail, settled, count⟩

/-- That a state was stored is announced once, and then nothing is left to be announced. -/
theorem ensures_announceStored (b : BestFirst H E) :
    Ensures (fun y => Sails x₀ n true y ∧ y.strategy = b)
      (onSearch (Search.announce (E := E) (P := P) (L := L) .stateStored))
      (fun _ y => Sails x₀ n false y ∧ y.strategy = b) fun _ => Sails x₀ n false := by
  rintro y ⟨⟨h, d, trail, pending, count⟩, same⟩
  let noted : Search E P L :=
    { y.search with run := y.search.run.record (.announced (y.search.bulletin .stateStored)) }
  have entered : Sails x₀ n false { y with search := noted } :=
    ⟨_, none, .next trail (.store pending (.announce .stateStored y.search)), rfl, count⟩
  exact ensures_onSearch_plain (.broadcast .stateStored) b { y with search := noted } ⟨entered, same⟩

theorem sailing_store : Sailing x₀ n (store (H := H) (E := E) (P := P) (L := L)) := by
  apply Ensures.bind ensures_offerCurrent_sailing
  intro stored
  cases stored with
  | true => exact fun y h => (ensures_announceStored y.strategy).imp (fun _ _ h => h.1) y ⟨h, rfl⟩
  | false => exact .pure fun _ h => h

/-! ## Expansions -/

theorem sailing_storeWithinLimit : Sailing x₀ n (storeWithinLimit (H := H) (E := E) (P := P) (L := L)) := by
  apply Ensures.get
  intro s h
  split
  · have told : Sailing x₀ n (onSearch (H := H) (Search.announceConstraint (E := E) (P := P) (L := L)
        ("queue limit reached: " ++ toString s.strategy.frontier.size))) :=
      .onSearch (.announceConstraint _)
    exact (told.bind fun _ => sailing_store).of_eq h
  · exact Ensures.of_eq sailing_store h

theorem sailing_consider : Sailing x₀ n (consider (H := H) (E := E) (P := P) (L := L)) := by
  apply Sailing.bind (.onSearch .isNew)
  intro isNew
  apply Sailing.bind (.look _)
  intro limit
  apply Sailing.bind (.look _)
  intro depth
  split
  · exact .onSearch (.announceConstraint _)
  · apply Sailing.bind (.look _)
    intro sensitive
    split
    · exact sailing_storeWithinLimit
    · exact .pure _

theorem sailing_receive : Sailing x₀ n (receive (H := H) (E := E) (P := P) (L := L)) := by
  apply Sailing.bind (.look _)
  intro violated
  split
  · apply Sailing.bind (.onSearch .isNew)
    intro _
    apply Sailing.bind (.onSearch .announceViolation)
    intro _
    apply Sailing.bind (.onSearch (.update .endsAtViolation))
    intro ends
    split
    · exact .pure _
    · apply Sailing.bind (.onSearch (.update fun _ => .of_eq rfl rfl rfl rfl rfl rfl rfl rfl))
      exact fun _ => .pure _
  · apply Sailing.bind (.look _)
    intro engine
    split
    · exact .pure _
    · exact sailing_consider.bind fun _ => .pure _

theorem sailing_leave : Sailing x₀ n (leave (H := H) (E := E) (P := P) (L := L)) := by
  apply Sailing.bind (.onSearch (.update .hasMemory))
  intro enough
  split
  · apply Sailing.bind (.onSearch .backtrack)
    intro moved
    split
    · apply Sailing.bind (.onSearch .ascend)
      intro _
      apply Sailing.bind (.onSearch (.announce (by decide)))
      exact fun _ => .pure _
    · exact .pure _
  · apply Sailing.bind (.onSearch .announceMemoryLimit)
    exact fun _ => .pure _

theorem sailing_generate : Sailing x₀ n (generate (H := H) (E := E) (P := P) (L := L) ()) := by
  apply Sailing.bind (.onSearch .pollProbe)
  intro _
  apply Sailing.bind (.onSearch .forward)
  intro moved
  split
  · apply Sailing.bind (.onSearch .descend)
    intro _
    apply Sailing.bind (.onSearch (.announce (by decide)))
    intro _
    apply Sailing.bind sailing_receive
    intro ends
    split
    · exact .pure _
    · exact sailing_leave
  · apply Sailing.bind (.onSearch (.announce (by decide)))
    exact fun _ => .pure _

theorem sailing_expand (budget : Nat) : Sailing x₀ n (expand (H := H) (E := E) (P := P) (L := L) budget) := by
  apply Ensures.loop_invariant
  · exact fun _ h => h
  · exact fun _ => sailing_generate

theorem ensures_restoreBest {y : Expedition H E P L} {entry : Key × Queued E} {rest : List (Key × Queued E)}
    (sails : Sails x₀ n false y) (entries : y.strategy.frontier.entries = entry :: rest) :
    Ensures (· = picking entry rest y)
      (onSearch (Search.restore (E := E) (P := P) (L := L) entry.2.snapshot name))
      (fun _ => Sails x₀ n false) fun _ => Sails x₀ n false := by
  obtain ⟨h, d, trail, settled, count⟩ := sails
  have resumed : Sails x₀ n false (resuming entry rest y) :=
    ⟨_, _, .next trail (.resume settled entries), rfl, count⟩
  rintro _ rfl
  simp only [onSearch, Search.restore, Bind.bind, EStateM.bind, Search.change_apply, Search.update_apply]
  let r := { (picking entry rest y).search.run with lastQuery := none, atViolation := false }
  cases accepted : (r.stepTo entry.2.snapshot).1 with
  | true => exact resumed.search rfl (.chore (.of_eq rfl rfl rfl rfl rfl rfl rfl rfl))
  | false => exact resumed

theorem sailing_expandBest (budget : Nat) :
    Sailing x₀ n (expandBest (H := H) (E := E) (P := P) (L := L) budget ()) := by
  apply Ensures.get
  intro y h
  split
  · refine .pure ?_
    rintro _ rfl
    exact h
  · rename_i best frontier popped
    obtain ⟨k, entries⟩ := Frontier.entries_of_pop? popped
    apply Ensures.set
    -- Between taking the state out and returning to it the search only notes it, so the two are one dealing.
    have noted : Ensures (· = { y with strategy := { y.strategy with frontier } })
        (onSearch (Search.change (E := E) (P := P) (L := L) (Run.record
          (.expanding (Named.name y.strategy.heuristic) best.state frontier.size))))
        (fun _ z => z = picking (k, best) frontier.entries y) fun _ => Sails x₀ n false := by
      rintro _ rfl
      rfl
    apply noted.bind
    intro _
    apply Ensures.bind (ensures_restoreBest h entries)
    intro _
    apply Sailing.bind (.onSearch (.announce (by decide)))
    intro _
    apply Sailing.bind (sailing_expand budget)
    intro reason
    cases reason <;> exact .pure _

/-! ## Whole runs -/

/-- What was counted before makes no difference. -/
theorem run_clear (budget : Nat) (x : Expedition H E P L) :
    run budget { x with strategy := x.strategy.clear } = run budget x := by
  obtain ⟨r, launched, -⟩ := Search.launch_eq name x.search
  simp only [run, Bind.bind, EStateM.bind, onSearch, launched]
  rfl

/-- The start finds room in the empty queue, whatever its priority is. -/
theorem ensures_storeRoot (keeps : Listener.KeepsQueueLimit E P L)
    (room : x₀.search.run.config.queueLimit ≠ some 0) (empty : x₀.strategy.frontier.entries = []) :
    Ensures (fun y => Sails x₀ 0 false y ∧ y.strategy = x₀.strategy)
      (store (H := H) (E := E) (P := P) (L := L))
      (fun _ y => Sails x₀ 0 false y ∧ ∃ entry, y.strategy.frontier.entries = [entry])
      fun _ => Sails x₀ 0 false := by
  have offered : Ensures (fun y => Sails x₀ 0 false y ∧ y.strategy = x₀.strategy)
      (offerCurrent (H := H) (E := E) (P := P) (L := L))
      (fun stored y => stored = true ∧ Sails x₀ 0 true y ∧ ∃ entry, y.strategy.frontier.entries = [entry])
      fun _ => Sails x₀ 0 false := by
    rintro y ⟨sails, same⟩
    have limit := sails.limit_eq keeps
    obtain ⟨h, d, trail, settled, count⟩ := sails
    obtain ⟨strategy, entry, fate, offered, taken, what, deals⟩ | ⟨f, failed⟩ := offerCurrent_deals y d settled
    · -- Nobody changed the limit, and a limit of zero is not valid: the empty queue is not full.
      have notFull : y.strategy.frontier.isFull y.search.run.config.queueLimit = false := by
        rw [same, limit]
        cases bound : x₀.search.run.config.queueLimit with
        | none => rfl
        | some k => cases k with
          | zero => exact absurd bound room
          | succ k => simp [Frontier.isFull, Frontier.size, empty]
      obtain ⟨added, queue⟩ := Frontier.offered_of_not_full (e := entry) notFull
      rw [added] at what
      subst what
      rw [offered]
      refine ⟨rfl, ⟨_, _, .next trail deals, rfl, count⟩, entry, ?_⟩
      simp only [taken, queue]
      simp [Frontier.insert, same, empty, Frontier.insertInto]
    · rw [failed]
      exact ⟨h, d, trail, settled, count⟩
  apply offered.bind
  intro stored
  apply Ensures.of_known
  rintro rfl
  rintro y ⟨sails, entries⟩
  refine (ensures_announceStored y.strategy).imp ?_ y ⟨sails, rfl⟩
  rintro _ z ⟨sails, same⟩
  exact ⟨sails, same ▸ entries⟩

/-- The start is taken out of the queue just before it is expanded. -/
theorem Sails.depart {entry : Key × Queued E} (h : Sails x₀ 0 false x)
    (entries : x.strategy.frontier.entries = [entry]) :
    Sails x₀ 1 false { x with strategy := { x.strategy with frontier := ⟨[]⟩ } } := by
  obtain ⟨history, d, trail, settled, count⟩ := h
  refine ⟨_, _, .next trail (.depart settled entries), rfl, ?_⟩
  show List.countP Dealing.isDeparture (.departed :: dealings history) = 1
  rw [List.countP_cons, count]
  rfl

/-- What holds of a run that failed. -/
def Sunk (x₀ x : Expedition H E P L) : Prop :=
  ∃ n, n ≤ 1 ∧ Sails x₀ n false x

theorem ensures_explore_sailing (keeps : Listener.KeepsQueueLimit E P L)
    (room : x₀.search.run.config.queueLimit ≠ some 0) (clear : x₀.strategy = x₀.strategy.clear) (budget : Nat) :
    Ensures (fun y => Sails x₀ 0 false y ∧ y.strategy = x₀.strategy)
      (explore (H := H) (E := E) (P := P) (L := L) budget)
      (fun _ => Sails x₀ 1 false) fun _ => Sunk x₀ := by
  have early {x : Expedition H E P L} (h : Sails x₀ 0 false x) : Sunk x₀ x := ⟨0, Nat.zero_le 1, h⟩
  have late {x : Expedition H E P L} (h : Sails x₀ 1 false x) : Sunk x₀ x := ⟨1, Nat.le_refl 1, h⟩
  have empty : x₀.strategy.frontier.entries = [] := by rw [clear]; rfl
  have cleared : Ensures (fun y => Sails x₀ 0 false y ∧ y.strategy = x₀.strategy)
      (modify fun s : Expedition H E P L => { s with strategy := s.strategy.clear })
      (fun _ y => Sails x₀ 0 false y ∧ y.strategy = x₀.strategy) fun _ => Sunk x₀ := by
    apply Ensures.modifying
    rintro ⟨_, search⟩ ⟨sails, rfl⟩
    rw [← clear]
    exact ⟨sails, rfl⟩
  have depth : Search.Plain (Search.change (L := L)
      fun r : Run E P => { r with depth := Engine.pathLength r.engine }) :=
    .change fun _ => .of_eq rfl rfl rfl rfl rfl rfl rfl rfl
  have finished (reason : StopReason) : Sailing x₀ 1 (do
      onSearch (H := H) (Search.announce (E := E) (P := P) (L := L) .searchFinished)
      return reason) :=
    Sailing.bind (.onSearch (.announce (by decide))) fun _ => .pure _
  apply cleared.bind
  intro _
  apply Ensures.bind ((ensures_onSearch_plain depth _).imp_fail fun _ _ => early)
  intro _
  apply Ensures.bind ((ensures_onSearch_plain (.announce (by decide)) _).imp_fail fun _ _ => early)
  intro _
  apply Ensures.bind ((ensures_storeRoot keeps room empty).imp_fail fun _ _ => early)
  intro _
  refine Ensures.bind (?_ : Ensures _ _ (fun _ => Sails x₀ 1 false) _) fun _ => ?_
  · -- The start is all that is queued, so it is what is taken out.
    apply Ensures.modifying
    rintro y ⟨sails, entry, entries⟩
    have popped : y.strategy.frontier.pop? = some (entry.2, ⟨[]⟩) := by simp [Frontier.pop?, entries]
    rw [popped]
    exact sails.depart entries
  apply Ensures.bind ((sailing_expand budget).imp_fail fun _ _ => late)
  intro reason
  cases reason with
  | some reason => exact (finished reason).imp_fail fun _ _ => late
  | none =>
    have rounds : Sailing x₀ 1 (loop (fun s : Expedition H E P L => s.search.run.done) .terminated
        (expandBest budget) budget ()) := by
      apply Ensures.loop_invariant
      · exact fun _ h => h
      · exact fun _ => sailing_expandBest budget
    exact (rounds.bind finished).imp_fail fun _ _ => late

theorem ensures_run_sailing (keeps : Listener.KeepsQueueLimit E P L)
    (room : x.search.run.config.queueLimit ≠ some 0) (budget : Nat) :
    Ensures (· = x) (run (H := H) (E := E) (P := P) (L := L) budget)
      (fun _ => Sails { x with strategy := x.strategy.clear } 1 false)
      fun _ => Sunk { x with strategy := x.strategy.clear } := by
  let x₀ : Expedition H E P L := { x with strategy := x.strategy.clear }
  have launched : Ensures (· = x₀) (onSearch (Search.launch (E := E) (P := P) (L := L) name))
      (fun _ y => Sails x₀ 0 false y ∧ y.strategy = x₀.strategy) fun _ => Sunk x₀ := by
    have started : Ensures (fun y => Sails x₀ 0 false y ∧ y.strategy = x₀.strategy)
        (onSearch (Search.launch (E := E) (P := P) (L := L) name))
        (fun _ y => Sails x₀ 0 false y ∧ y.strategy = x₀.strategy) fun _ => Sails x₀ 0 false :=
      ensures_onSearch_plain (.launch name) _
    exact (started.imp_fail fun _ _ h => ⟨0, Nat.zero_le 1, h⟩).of_eq ⟨.start x₀, rfl⟩
  have whole : Ensures (· = x₀) (run (H := H) (E := E) (P := P) (L := L) budget)
      (fun _ => Sails x₀ 1 false) fun _ => Sunk x₀ := by
    have explored : Ensures (fun y => Sails x₀ 0 false y ∧ y.strategy = x₀.strategy)
        (explore (H := H) (E := E) (P := P) (L := L) budget) (fun _ => Sails x₀ 1 false) fun _ => Sunk x₀ :=
      have room : x₀.search.run.config.queueLimit ≠ some 0 := room
      ensures_explore_sailing keeps room rfl budget
    apply launched.bind
    intro _
    apply explored.bind
    intro reason
    exact (Sailing.onSearch (.conclude reason)).imp_fail fun _ _ h => ⟨1, Nat.le_refl 1, h⟩
  rintro _ rfl
  rw [← run_clear]
  exact whole x₀ rfl

end Deals

end BestFirst

end Statewalk
