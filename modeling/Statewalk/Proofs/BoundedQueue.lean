import Statewalk.Proofs.QueueTrails

/-! # Bounded queues

A best-first search with a limited queue forgets states when it has to.  It forgets the right ones: the queue
always holds the best of what was left in it and offered since, and of states with one priority the older
ones.  The books agree with that, and so do the announcements.
-/

namespace Statewalk

theorem Config.queueLimit_ne_zero {c : Config} (valid : c.validate = .ok ()) : c.queueLimit ≠ some 0 := by
  intro closed
  have zero : c.zeroLimit? ≠ none := by
    unfold Config.zeroLimit?
    split_ifs <;> simp_all
  unfold Config.validate at valid
  split at valid
  · cases valid
  · contradiction

namespace BestFirst

open Frontier

variable {H E P L : Type} [Engine E] [Checkable E P] [Listener E P L] [Heuristic H E P]
  {limit : Option Nat} {o : Occurrence} {p q : Point H E P L} {h : List (Occurrence × Point H E P L)}

omit [Checkable E P] [Listener E P L] [Heuristic H E P] in
@[simp] theorem dealings_cons : dealings ((o, p) :: h) = p.dealing.toList ++ dealings h := by
  cases dealing : p.dealing <;> simp [dealings, dealing]

/-! ## The queue at each point -/

/-- The queue is in order and keeps its limit, and its entries are older than the next one. -/
structure Point.Orderly (limit : Option Nat) (p : Point H E P L) : Prop where
  limit_eq : p.limit = limit
  ascending : Ascending p.frontier.entries
  numbered : Numbered p.frontier.entries
  older : ∀ e ∈ p.frontier.entries, e.1.number < p.expedition.strategy.offered
  fits : ∀ n, limit = some n → p.frontier.size ≤ n

namespace Point.Orderly

omit [Checkable E P] [Listener E P L] [Heuristic H E P]

theorem of_sublist (h : p.Orderly limit) (same : q.limit = p.limit)
    (sublist : q.frontier.entries.Sublist p.frontier.entries)
    (offered : q.expedition.strategy.offered = p.expedition.strategy.offered) : q.Orderly limit where
  limit_eq := same.trans h.limit_eq
  ascending := h.ascending.sublist sublist
  numbered := h.numbered.sublist sublist
  older e member := offered ▸ h.older e (sublist.subset member)
  fits n bound := Nat.le_trans sublist.length_le (h.fits n bound)

/-- A new entry has a number of its own. -/
theorem numbered_cons (h : p.Orderly limit) {entry : Key × Queued E}
    (number : entry.1.number = p.expedition.strategy.offered) : Numbered (entry :: p.frontier.entries) := by
  refine List.pairwise_cons.2 ⟨fun e member same => ?_, h.numbered⟩
  have older := h.older e member
  omega

theorem entries_offered (h : p.Orderly limit) {entry : Key × Queued E}
    (number : entry.1.number = p.expedition.strategy.offered) :
    (p.frontier.offered p.limit entry).entries = best limit (entry :: p.frontier.entries) := by
  rw [h.limit_eq]
  exact Frontier.entries_offered h.ascending (h.numbered_cons number) h.fits

theorem offer (h : p.Orderly limit) {entry : Key × Queued E} {heuristic : H} {d : Option (Dealing E)}
    (number : entry.1.number = p.expedition.strategy.offered) :
    Point.Orderly limit
      { expedition := { p.expedition with strategy := p.expedition.strategy.taking p.limit entry heuristic }
        dealing := d } := by
  have entries := h.entries_offered number
  have distinct := h.numbered_cons number
  refine ⟨h.limit_eq, ?_, ?_, ?_, ?_⟩
  · exact entries ▸ ascending_best distinct
  · exact entries ▸ numbered_best distinct
  · intro e member
    show e.1.number < p.expedition.strategy.offered + 1
    cases List.mem_cons.1 (mem_of_mem_best (entries ▸ member)) with
    | inl new => rw [new, number]; exact Nat.lt_succ_self _
    | inr old => exact Nat.lt_succ_of_lt (h.older e old)
  · rintro n rfl
    show (p.frontier.offered p.limit entry).entries.length ≤ n
    rw [entries]
    exact length_best_le

end Point.Orderly

theorem Deals.orderly (keeps : Listener.KeepsQueueLimit E P L) (deals : Deals o p q) (h : p.Orderly limit) :
    q.Orderly limit := by
  have same := deals.limit_eq keeps
  cases deals with
  | search => exact h.of_sublist same (.refl _) rfl
  | store => exact h.of_sublist same (.refl _) rfl
  | offer _ number => exact h.offer number
  | depart _ entries => exact h.of_sublist same (entries ▸ List.sublist_cons_self ..) rfl
  | resume _ entries => exact h.of_sublist same (entries ▸ List.sublist_cons_self ..) rfl

theorem orderly_of_trail (keeps : Listener.KeepsQueueLimit E P L) (trail : Trail Deals p h q)
    (start : p.Orderly limit) : q.Orderly limit :=
  (trail.invariant (fun _ _ _ deals orderly => deals.orderly keeps orderly) start).1

/-! ## The queue between two points -/

/-- While states are only offered, the queue holds the best of what it held and what it was offered. -/
theorem entries_of_offers (keeps : Listener.KeepsQueueLimit E P L) (trail : Trail Deals p h q)
    (start : p.Orderly limit) (only : ∀ d ∈ dealings h, d.offer?.isSome = true) :
    q.frontier.entries = best limit (offers h ++ p.frontier.entries) ∧
      Numbered (offers h ++ p.frontier.entries) ∧
      ∀ e ∈ offers h ++ p.frontier.entries, e.1.number < q.expedition.strategy.offered := by
  induction trail with
  | start => exact ⟨(best_of_ascending start.ascending start.numbered start.fits).symm, start.numbered, start.older⟩
  | @next h t u o earlier last ih =>
    rw [dealings_cons, List.forall_mem_append] at only
    obtain ⟨entries, numbered, older⟩ := ih only.2
    have orderly := orderly_of_trail keeps earlier start
    cases last with
    | search => exact ⟨entries, numbered, older⟩
    | store => exact ⟨entries, numbered, older⟩
    | depart => simp [Dealing.offer?] at only
    | resume => simp [Dealing.offer?] at only
    | @offer _ entry heuristic _ number =>
      -- No entry so far has the number of the new one, so the best of all are the best of it and the best so far.
      have distinct : Numbered (entry :: (offers h ++ p.frontier.entries)) := by
        refine List.pairwise_cons.2 ⟨fun e member same => ?_, numbered⟩
        have old := older e member
        omega
      refine ⟨?_, distinct, ?_⟩
      · calc (t.frontier.offered t.limit entry).entries
            = best limit (entry :: t.frontier.entries) := orderly.entries_offered number
          _ = best limit (entry :: best limit (offers h ++ p.frontier.entries)) := by rw [entries]
          _ = best limit (entry :: (offers h ++ p.frontier.entries)) := best_cons_best distinct
      · refine List.forall_mem_cons.2 ⟨number ▸ Nat.lt_succ_self _, ?_⟩
        exact fun e member => Nat.lt_succ_of_lt (older e member)

/-! ## The books -/

/-- Every state that was put into the queue was taken out of it, is still there or had to make room. -/
theorem stored_of_trail (trail : Trail Deals p h q) (start : p.expedition.strategy.stored = p.frontier.size) :
    q.expedition.strategy.stored = (dealings h).countP Dealing.isDeparture +
      (dealings h).countP Dealing.isResumption + q.frontier.size + (dealings h).countP Dealing.isEviction := by
  -- By induction on the history: what a dealing takes out of one account it puts into another.
  induction trail with
  | start => simpa [dealings] using start
  | @next h t u o _ last ih =>
    cases last with
    | search => exact ih
    | store => exact ih
    | @depart _ entry rest _ entries =>
      have size : t.frontier.size = rest.length + 1 := by rw [Frontier.size, entries, List.length_cons]
      have one : (Dealing.departed (E := E) :: dealings h).countP Dealing.isDeparture =
          (dealings h).countP Dealing.isDeparture + 1 := List.countP_cons_of_pos rfl
      show t.expedition.strategy.stored =
        (Dealing.departed :: dealings h).countP Dealing.isDeparture +
          (dealings h).countP Dealing.isResumption + rest.length + (dealings h).countP Dealing.isEviction
      omega
    | @resume _ entry rest _ entries =>
      have size : t.frontier.size = rest.length + 1 := by rw [Frontier.size, entries, List.length_cons]
      have one : (Dealing.resumed entry :: dealings h).countP Dealing.isResumption =
          (dealings h).countP Dealing.isResumption + 1 := List.countP_cons_of_pos rfl
      show t.expedition.strategy.stored =
        (dealings h).countP Dealing.isDeparture +
          (Dealing.resumed entry :: dealings h).countP Dealing.isResumption + rest.length +
          (dealings h).countP Dealing.isEviction
      omega
    | @offer _ entry heuristic _ _ =>
      have size := size_offered t.limit entry t.frontier
      have evictions := List.countP_cons (p := Dealing.isEviction) (l := dealings h)
        (a := .offered entry (t.frontier.fate t.limit entry.1))
      show (if t.frontier.fate t.limit entry.1 = .refused then t.expedition.strategy.stored
          else t.expedition.strategy.stored + 1) =
        (dealings h).countP Dealing.isDeparture + (dealings h).countP Dealing.isResumption +
          (t.frontier.offered t.limit entry).size +
          (Dealing.offered entry (t.frontier.fate t.limit entry.1) :: dealings h).countP Dealing.isEviction
      rw [evictions, size]
      cases fate : t.frontier.fate t.limit entry.1 <;> simp [Dealing.isEviction] <;> omega

/-! ## Announcements -/

theorem Deals.announces_iff (deals : Deals o p q) : o = .announce .stateStored ↔ p.isPending = true := by
  cases deals with
  | search settled plain =>
    rw [settled]
    refine ⟨?_, by simp⟩
    rintro rfl
    cases plain
  | store pending => simp [pending]
  | offer settled => simp [settled]
  | depart settled => simp [settled]
  | resume settled => simp [settled]

/-! ## Whole runs -/

/-- What is true of the queue along a history that begins at a point. -/
structure KeepsBest (limit : Option Nat) (start : Point H E P L) (h : List (Occurrence × Point H E P L)) : Prop where
  /-- At every point the queue keeps its limit, and no two of its entries have one key. -/
  bounded : ∀ after before, h = after ++ before →
    (∀ n, limit = some n → (latest start before).frontier.size ≤ n) ∧
      ((latest start before).frontier.entries.map (·.1)).Nodup
  /-- A state that is returned to is the one with the least key. -/
  least : ∀ after before p, h = after ++ (.move .restore, p) :: before →
    ∃ entry rest, p.dealing = some (.resumed entry) ∧ (latest start before).frontier.entries = entry :: rest ∧
      p.frontier.entries = rest ∧ ∀ e ∈ rest, entry.1.before e.1 = true
  /-- While states are only offered, the queue holds the best of what it held at first and what it was
      offered, in whatever order these are put. -/
  best : ∀ after between before, h = after ++ (between ++ before) →
    (∀ d ∈ dealings between, d.offer?.isSome = true) →
    ∀ all, all.Perm (offers between ++ (latest start before).frontier.entries) →
      (latest start (between ++ before)).frontier.entries = Frontier.best limit all
  /-- A full queue refuses what has no smaller priority than its worst entry. -/
  refuses : ∀ after before o p entry fate worst, h = after ++ (o, p) :: before →
    p.dealing = some (.offered entry fate) → limit = some (latest start before).frontier.size →
    (latest start before).frontier.worst? = some worst →
    (fate = .refused ↔ worst.priority ≤ entry.1.priority)
  /-- That a state was stored is announced just after it was put into the queue, -/
  announced : ∀ after before o p, h = after ++ (o, p) :: before →
    (o = .announce .stateStored ↔ (latest start before).isPending = true)
  /-- and never left out. -/
  settled : (latest start h).isPending = false
  /-- Once the start was taken out to be expanded, the books tell of it, of the states that were returned
      to, of those in the queue and of those that had to make room. -/
  accounts : ∀ after before, h = after ++ before → (∃ d ∈ dealings before, d.isDeparture = true) →
    (latest start before).expedition.strategy.stored =
      1 + (dealings before).countP Dealing.isResumption + (latest start before).frontier.size +
        (dealings before).countP Dealing.isEviction

theorem fate_eq_refused_iff {entry : Key × Queued E} {fate : Fate} {worst : Key} (deals : Deals o p q)
    (orderly : p.Orderly limit) (dealing : q.dealing = some (.offered entry fate))
    (full : limit = some p.frontier.size) (last : p.frontier.worst? = some worst) :
    fate = .refused ↔ worst.priority ≤ entry.1.priority := by
  cases deals with
  | search => cases dealing
  | store => cases dealing
  | depart => cases dealing
  | resume => cases dealing
  | offer _ number =>
    cases dealing
    have isFull : p.frontier.isFull p.limit = true := by
      rw [orderly.limit_eq, full]
      simp [Frontier.isFull]
    obtain ⟨init, final, entries, rfl, -⟩ := worst?_eq_some last
    -- The entry is younger than the worst one, so only its priority can get it in.
    have younger : final.1.number < entry.1.number := by
      rw [number]
      exact orderly.older final (by simp [entries])
    have wins := Key.before_iff_of_number_lt younger
    simp only [Frontier.fate, isFull, last, Option.any_some, if_true]
    cases before : entry.1.before final.1 with
    | true =>
      have less := wins.1 before
      simp
      omega
    | false =>
      have notLess : ¬ entry.1.priority < final.1.priority := fun less => by
        rw [wins.2 less] at before
        cases before
      simp
      omega

theorem keepsBest_of_trail (keeps : Listener.KeepsQueueLimit E P L) (trail : Trail Deals p h q)
    (start : p.Orderly limit) (none : p.expedition.strategy.stored = p.frontier.size)
    (settled : q.isPending = false) (once : (dealings h).countP Dealing.isDeparture ≤ 1) : KeepsBest limit p h where
  bounded := by
    rintro after before rfl
    have orderly := orderly_of_trail keeps trail.split_latest.1 start
    exact ⟨orderly.fits, orderly.ascending.nodup_keys⟩
  least := by
    rintro after before r rfl
    obtain ⟨earlier, deals⟩ := trail.step_at
    have ascending := (orderly_of_trail keeps earlier start).ascending
    cases deals with
    | search _ plain => cases plain
    | @resume _ entry rest _ entries =>
      rw [entries] at ascending
      exact ⟨entry, rest, rfl, entries, rfl, (List.pairwise_cons.1 ascending).1⟩
  best := by
    rintro after between before rfl only all perm
    have whole := trail.split_latest.1
    obtain ⟨earlier, stretch⟩ := whole.split_latest
    obtain ⟨entries, numbered, -⟩ := entries_of_offers keeps stretch (orderly_of_trail keeps earlier start) only
    rw [entries]
    exact (best_eq_of_perm numbered perm).symm
  refuses := by
    rintro after before o r entry fate worst rfl dealing full last
    obtain ⟨earlier, deals⟩ := trail.step_at
    exact fate_eq_refused_iff deals (orderly_of_trail keeps earlier start) dealing full last
  announced := by
    rintro after before o r rfl
    exact trail.step_at.2.announces_iff
  settled := by rw [trail.latest_eq, settled]
  accounts := by
    rintro after before rfl departed
    have stored := stored_of_trail trail.split_latest.1 none
    -- The start departs once in the whole history, and it did so before this point.
    have least : 0 < (dealings before).countP Dealing.isDeparture := List.countP_pos_iff.2 departed
    have most : (dealings before).countP Dealing.isDeparture ≤ 1 := by
      refine Nat.le_trans (List.Sublist.countP_le ?_) once
      exact (List.sublist_append_right after before).filterMap _
    omega

/-- A best-first search under a limit that was validated keeps the best: at every point of its run the queue
    is within the limit and without two entries of one key, the state that is returned to is the one with the
    least key, and from any point on, as long as states are only offered, the queue holds the best of what it
    held then and what it was offered, whatever their order.  A full queue refuses a state whose priority is
    that of its worst entry.  The states announced as stored are those that were put into the queue, and the
    number of them is one for the start and one for each state that was returned to, is still queued or had
    to make room. -/
theorem bounded_queue_keeps_best {x : Expedition H E P L} (keeps : Listener.KeepsQueueLimit E P L)
    (valid : x.search.run.config.validate = .ok ()) (budget : Nat) :
    let limit := x.search.run.config.queueLimit
    let start : Point H E P L := { expedition := { x with strategy := x.strategy.clear } }
    Ensures (· = x) (BestFirst.run budget)
      (fun _ y => ∃ h d, Trail Deals start h { expedition := y, dealing := d } ∧ KeepsBest limit start h ∧
        ∃ d ∈ dealings h, d.isDeparture = true)
      fun _ y => ∃ h d, Trail Deals start h { expedition := y, dealing := d } ∧ KeepsBest limit start h := by
  intro limit start
  have room : limit ≠ some 0 := Config.queueLimit_ne_zero valid
  have orderly : start.Orderly limit :=
    ⟨rfl, List.Pairwise.nil, List.Pairwise.nil, List.forall_mem_nil _, fun _ _ => Nat.zero_le _⟩
  have ran := ensures_run_sailing (H := H) keeps room budget
  refine (ran.imp ?_).imp_fail ?_
  · rintro _ y ⟨h, d, trail, settled, count⟩
    refine ⟨h, d, trail, keepsBest_of_trail keeps trail orderly rfl settled (Nat.le_of_eq count), ?_⟩
    exact List.countP_pos_iff.1 (count ▸ Nat.one_pos)
  · rintro _ y ⟨n, le, h, d, trail, settled, count⟩
    exact ⟨h, d, trail, keepsBest_of_trail keeps trail orderly rfl settled (count ▸ le)⟩

end BestFirst

/-- A state with three successors, the first of which has two more; the others lead back. -/
def StateGraph.fan : StateGraph :=
  { name := "fan"
    states := [
      { edges := [{ target := 1 }, { target := 2 }, { target := 3 }] },
      { edges := [{ target := 4 }, { target := 5 }] }, { edges := [{ target := 0 }] },
      { edges := [{ target := 0 }] }, { edges := [{ target := 0 }] }, { edges := [{ target := 0 }] }] }

/-- With room for two, the third successor is refused and the second has to make room for a deeper state. -/
theorem fan_queue_keeps_best : ∃ e s, GraphEngine.ofGraph .fan = .ok e ∧
    Search.ofEngine e { queueLimit := some 2 } = .ok s ∧
    let x : Expedition DeepestFirst GraphEngine Subject (RuleListener Subject) :=
      { strategy := { heuristic := ⟨⟩ }, search := s.addListener inquirer }
    let start : BestFirst.Point DeepestFirst GraphEngine Subject (RuleListener Subject) := { expedition := x }
    ∃ o y, BestFirst.run 20 x = .ok o y ∧ o.reason = .exhausted ∧ y.strategy.offered = 6 ∧
      y.strategy.stored = 5 ∧
      ∃ h d, Trail BestFirst.Deals start h { expedition := y, dealing := d } ∧
        BestFirst.KeepsBest (some 2) start h ∧ ∃ d ∈ BestFirst.dealings h, d.isDeparture = true := by
  refine ⟨_, .fresh _ { queueLimit := some 2 }, rfl, rfl, ?_⟩
  intro x start
  have ended : ∃ o y, BestFirst.run 20 x = .ok o y ∧ o.reason = .exhausted ∧ y.strategy.offered = 6 ∧
      y.strategy.stored = 5 := exists_ok_of_check (by decide +kernel)
  obtain ⟨o, y, ran, reason, offered, stored⟩ := ended
  have valid : x.search.run.config.validate = .ok () := rfl
  have kept := BestFirst.bounded_queue_keeps_best RuleListener.lawful.keepsQueueLimit valid 20
  exact ⟨o, y, ran, reason, offered, stored, Ensures.of_ok kept rfl ran⟩

end Statewalk
