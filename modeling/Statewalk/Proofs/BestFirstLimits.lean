import Statewalk.Proofs.DepthLimits

/-! # The depth limit in best-first search

A new state is queued only below the depth limit, so its successors lie at the limit at most.  A state has
only so many transitions; a queued state therefore leads to no more expansions than a tree has nodes that
is as high as the limit is far.  What all queued states lead to goes down with each expansion, and in the
end the queue is empty.  There is one way past the limit: a search that is sensitive to paths also queues
states that it knows, and asks for no limit then.
-/

namespace Statewalk

/-- The number of nodes of a tree of the given height whose nodes have so many children. -/
def treeSize (children : Nat) : Nat → Nat
  | 0 => 0
  | height + 1 => 1 + children * treeSize children height

namespace BestFirst

/-- The greatest number of expansions that a queued state leads to, its own included. -/
def toll (g : StateGraph) (limit : Nat) (q : Queued GraphEngine) : Nat :=
  treeSize (Ledger.total g) (limit - q.snapshot.pathLength)

/-- A budget that no best-first search over the graph spends that keeps to the limit. -/
def patience (g : StateGraph) (limit : Nat) : Nat :=
  2 * treeSize (Ledger.total g) limit + Ledger.total g + 1

theorem treeSize_sub {children limit d : Nat} (shallow : d < limit) :
    treeSize children (limit - d) = 1 + children * treeSize children (limit - (d + 1)) := by
  obtain ⟨height, rfl⟩ : ∃ height, limit = d + 1 + height := ⟨limit - (d + 1), by omega⟩
  rw [Nat.add_sub_cancel_left, Nat.add_assoc, Nat.add_sub_cancel_left, Nat.add_comm 1 height]
  rfl

section Queue

variable {H : Type} {g : StateGraph} {limit n n' : Nat} {b : BestFirst H GraphEngine}

/-- Genuine snapshots from below the limit are queued, and lead to at most `n` expansions. -/
structure Stocked (g : StateGraph) (limit n : Nat) (b : BestFirst H GraphEngine) : Prop where
  genuine : ∀ e ∈ b.frontier.entries, GraphEngine.Genuine g e.2.snapshot
  shallow : ∀ e ∈ b.frontier.entries, e.2.snapshot.pathLength < limit
  load : b.frontier.load (toll g limit) ≤ n

theorem Stocked.mono (h : Stocked g limit n b) (le : n ≤ n') : Stocked g limit n' b :=
  ⟨h.genuine, h.shallow, h.load.trans le⟩

theorem Stocked.of_frontier {b' : BestFirst H GraphEngine} (h : Stocked g limit n b)
    (same : b'.frontier = b.frontier) : Stocked g limit n b' := by
  obtain ⟨genuine, shallow, load⟩ := h
  rw [← same] at genuine shallow load
  exact ⟨genuine, shallow, load⟩

theorem Stocked.offer {b' : BestFirst H GraphEngine} {room : Option Nat} {key : Key} {q : Queued GraphEngine}
    (h : Stocked g limit n b) (offered : b.frontier.offer? room key q = some b'.frontier)
    (genuine : GraphEngine.Genuine g q.snapshot) (shallow : q.snapshot.pathLength < limit) :
    Stocked g limit (n + toll g limit q) b' := by
  refine ⟨?_, ?_, (Frontier.load_of_offer? _ offered).trans (Nat.add_le_add_right h.load _)⟩
  · intro e member
    cases Frontier.mem_of_offer? offered member with
    | inl new => exact new ▸ genuine
    | inr old => exact h.genuine e old
  · intro e member
    cases Frontier.mem_of_offer? offered member with
    | inl new => exact new ▸ shallow
    | inr old => exact h.shallow e old

/-- The best state and the others share what they lead to. -/
theorem Stocked.pop {q : Queued GraphEngine} {frontier : Frontier (Queued GraphEngine)}
    (h : Stocked g limit n b) (popped : b.frontier.pop? = some (q, frontier)) :
    GraphEngine.Genuine g q.snapshot ∧ q.snapshot.pathLength < limit ∧
      toll g limit q + frontier.load (toll g limit) ≤ n ∧
      Stocked g limit (frontier.load (toll g limit)) { b with frontier } := by
  obtain ⟨⟨key, member⟩, rest, -⟩ := Frontier.mem_of_pop? popped
  have load := Frontier.load_of_pop? (toll g limit) popped
  exact ⟨h.genuine _ member, h.shallow _ member, load ▸ h.load,
    fun e member => h.genuine e (rest member), fun e member => h.shallow e (rest member), Nat.le_refl _⟩

end Queue

/-! ## Expeditions -/

open Search

variable {H P L : Type} {g : StateGraph} {c : Config} {j : Journal}
  {fair : Failure → Prop} {allowed : L → Prop} {J K : Run GraphEngine P → Prop} {α : Type} {d m n n' k : Nat}

/-- The run is as `J` says, and what is queued leads to at most `n` expansions. -/
structure Holds (g : StateGraph) (c : Config) (allowed : L → Prop) (J : Run GraphEngine P → Prop) (n : Nat)
    (x : Expedition H GraphEngine P L) : Prop where
  search : x.search.Heeded allowed J
  stocked : Stocked g c.depthLimit n x.strategy

/-- The engine stands at depth `d`, and a frame of its path has `m` transitions left. -/
abbrev Stands (g : StateGraph) (c : Config) (j : Journal) (allowed : L → Prop) (below d m n : Nat)
    (x : Expedition H GraphEngine P L) : Prop :=
  Holds g c allowed (Run.Stationed g c j below d m) n x

/-- The search is sensitive to paths, and stored a state at the limit or beyond. -/
def Overran (c : Config) (j : Journal) (allowed : L → Prop) (x : Expedition H GraphEngine P L) : Prop :=
  c.pathSensitive = true ∧ x.search.Heeded allowed fun r => j.Overruns c.depthLimit r.journal

/-- The run failed fairly and kept to the limit, or it had overrun it. -/
def Fails (c : Config) (j : Journal) (fair : Failure → Prop) (allowed : L → Prop) (f : Failure)
    (x : Expedition H GraphEngine P L) : Prop :=
  (x.search.Heeded allowed fun r => j.KeepsTo c.depthLimit r.journal ∧ fair f) ∨ Overran c j allowed x

theorem Holds.mono {x : Expedition H GraphEngine P L} (h : Holds g c allowed J n x) (le : n ≤ n') :
    Holds g c allowed J n' x :=
  ⟨h.search, h.stocked.mono le⟩

theorem Holds.imp {x : Expedition H GraphEngine P L} (h : Holds g c allowed J n x) (imp : ∀ r, J r → K r) :
    Holds g c allowed K n x :=
  ⟨h.search.imp imp, h.stocked⟩

theorem holds_exists {ι : Type} {J : ι → Run GraphEngine P → Prop} {x : ExpeditionM H GraphEngine P L α}
    {post : α → Expedition H GraphEngine P L → Prop} {fail : Failure → Expedition H GraphEngine P L → Prop}
    (h : ∀ i, Ensures (Holds g c allowed (J i) n) x post fail) :
    Ensures (Holds g c allowed (fun r => ∃ i, J i r) n) x post fail := by
  intro s hs
  obtain ⟨i, here⟩ := hs.search.run
  exact h i s ⟨⟨hs.search.listeners, hs.search.reporter, here⟩, hs.stocked⟩

theorem holds_and {p : Prop} {x : ExpeditionM H GraphEngine P L α}
    {post : α → Expedition H GraphEngine P L → Prop} {fail : Failure → Expedition H GraphEngine P L → Prop}
    (h : p → Ensures (Holds g c allowed J n) x post fail) :
    Ensures (Holds g c allowed (fun r => p ∧ J r) n) x post fail :=
  fun s hs => h hs.search.run.1 s (hs.imp fun _ h => h.2)

theorem holds_onSearch {x : SearchM GraphEngine P L α} {K : α → Run GraphEngine P → Prop}
    (h : Heads c j fair allowed J x K) :
    Ensures (Holds (H := H) g c allowed J n) (onSearch x) (fun a => Holds g c allowed (K a) n)
      (Fails c j fair allowed) := by
  have lifted := ensures_onSearch h fun b : BestFirst H GraphEngine => Stocked g c.depthLimit n b
  apply ((lifted.of_imp fun _ hx => ⟨hx.search, hx.stocked⟩).imp _).imp_fail
  · exact fun f x hx => .inl hx
  · exact fun a x hx => ⟨hx.1, hx.2⟩

/-- What is looked at is known already. -/
theorem holds_look {f : Run GraphEngine P → α} {a : α} (known : ∀ r, J r → f r = a) :
    Ensures (Holds (H := H) g c allowed J n) (look f) (fun a' x => a' = a ∧ Holds g c allowed J n x)
      (Fails c j fair allowed) :=
  fun x hx => ⟨known x.search.run hx.search.run, hx⟩

/-- What is looked at does not matter. -/
theorem holds_glance (f : Run GraphEngine P → α) :
    Ensures (Holds (H := H) g c allowed J n) (look f) (fun _ => Holds g c allowed J n) (Fails c j fair allowed) :=
  fun _ hx => hx

/-- A limit that was overrun stays so. -/
def Escapes (c : Config) (j : Journal) (allowed : L → Prop) (x : ExpeditionM H GraphEngine P L α) : Prop :=
  Ensures (Overran c j allowed) x (fun _ => Overran c j allowed) fun _ => Overran c j allowed

theorem Escapes.of_search {x : ExpeditionM H GraphEngine P L α}
    (h : Ensures (fun s => s.search.Heeded allowed fun r => j.Overruns c.depthLimit r.journal) x
      (fun _ s => s.search.Heeded allowed fun r => j.Overruns c.depthLimit r.journal)
      fun _ s => s.search.Heeded allowed fun r => j.Overruns c.depthLimit r.journal) :
    Escapes c j allowed x := by
  apply Ensures.of_known
  intro sensitive
  apply (h.imp _).imp_fail
  · exact fun _ _ hx => ⟨sensitive, hx⟩
  · exact fun _ _ hx => ⟨sensitive, hx⟩

theorem Escapes.ensures {x : ExpeditionM H GraphEngine P L α} (h : Escapes c j allowed x)
    {post : α → Expedition H GraphEngine P L → Prop} : Ensures (Overran c j allowed) x
      (fun a s => post a s ∨ Overran c j allowed s) (Fails c j fair allowed) := by
  apply (Ensures.imp h _).imp_fail
  · exact fun _ _ => .inr
  · exact fun _ _ => .inr

variable [Listener GraphEngine P L]

/-! ## Storing -/

section Storing

variable [Heuristic H GraphEngine P]
  (restrained : Listener.Restrained (E := GraphEngine) (P := P) (fun _ => True) allowed)
  (covers : Failure.Covers (P := P) fair allowed c)
  (ranked : ∀ (r : Run GraphEngine P) (h : H) fault,
    (Heuristic.priority r h).1 = .error fault → fair (.fault fault))

omit [Listener GraphEngine P L] in
include ranked in
/-- A state below the limit may be queued, and so may one that is not. -/
theorem holds_offerCurrent :
    Ensures (Stands (H := H) (P := P) g c j allowed k d m n) offerCurrent
      (fun stored x => x.search.Heeded allowed (Run.Stationed g c j k d m) ∧
        (stored = false → Stocked g c.depthLimit n x.strategy) ∧
        (d < c.depthLimit → Stocked g c.depthLimit
          (n + treeSize (Ledger.total g) (c.depthLimit - d)) x.strategy))
      (Fails c j fair allowed) := by
  intro x hx
  have here := hx.search.run
  obtain ⟨strategy, lost, -, same⟩ | ⟨strategy, key, queued, won, saved, offered⟩ | ⟨missing, -⟩ |
    ⟨fault, unranked, failed⟩ := offerCurrent_eq x
  · rw [lost]
    have kept := hx.stocked.of_frontier same
    exact ⟨hx.search, fun _ => kept, fun _ => kept.mono (Nat.le_add_right _ _)⟩
  · rw [won]
    refine ⟨hx.search, fun stored => (by cases stored), fun shallow => ?_⟩
    -- The snapshot has the length of the path, which is the depth.
    obtain ⟨genuine, length⟩ := (GraphEngine.paced g).snapshot _ _ here.wellFormed saved
    have depth : queued.snapshot.pathLength = d := by
      have frames := here.wellFormed.frames_length
      rw [here.frames] at frames
      rw [length]
      exact (Nat.succ.inj frames).symm
    have stocked := hx.stocked.offer offered genuine (depth ▸ shallow)
    rwa [toll, depth] at stocked
  · cases missing
  · rw [failed]
    exact .inl ⟨hx.search.listeners, hx.search.reporter, here.journal, ranked _ _ fault unranked⟩

include restrained covers ranked

theorem holds_store (shallow : d < c.depthLimit) :
    Ensures (Stands (H := H) (P := P) g c j allowed k d m n) store
      (fun _ => Stands g c j allowed k d m
        (n + treeSize (Ledger.total g) (c.depthLimit - d)))
      (Fails c j fair allowed) := by
  have told : Heads (L := L) c j fair allowed (Run.Stationed g c j k d m) (announce .stateStored)
      fun _ => Run.Stationed g c j k d m :=
    heads_announce Run.enduring_stationed restrained covers (by decide)
  apply Ensures.bind (holds_offerCurrent ranked)
  intro stored
  cases stored with
  | true => exact (holds_onSearch told).of_imp fun x hx => ⟨hx.1, hx.2.2 shallow⟩
  | false => exact .pure fun x hx => ⟨hx.1, hx.2.2 shallow⟩

omit covers in
/-- A state at the limit or beyond is stored by a search that is sensitive to paths. -/
theorem overran_store (sensitive : c.pathSensitive = true) (deep : c.depthLimit ≤ d) :
    Ensures (Stands (H := H) (P := P) g c j allowed k d m n) store
      (fun _ x => Stands g c j allowed k d m n x ∨ Overran c j allowed x)
      (Fails c j fair allowed) := by
  have told : Ensures (Heeded (L := L) allowed (Run.Stationed (P := P) g c j k d m)) (announce .stateStored)
      (fun _ => Heeded allowed fun r => j.Overruns c.depthLimit r.journal)
      (fun _ => Heeded allowed fun r => j.Overruns c.depthLimit r.journal) := by
    apply ensures_announce restrained
    · intro r i h
      exact .of_record h.journal ⟨rfl, by rw [← h.depth] at deep; exact deep⟩
    · exact fun _ _ => trivial
    · intro r r' h attended
      obtain ⟨asides, recent, -⟩ := attended.journal
      exact h.more recent
    · exact fun _ _ h _ => h
  apply Ensures.bind (holds_offerCurrent ranked)
  intro stored
  cases stored with
  | true =>
    apply (((ensures_onSearch_alone told).of_imp fun x hx => hx.1).imp _).imp_fail
    · exact fun f x hx => .inr ⟨sensitive, hx⟩
    · exact fun _ x hx => .inr ⟨sensitive, hx⟩
  | false => exact .pure fun x hx => .inl ⟨hx.1, hx.2.1 rfl⟩

theorem holds_storeWithinLimit (sensitive : c.depthLimit ≤ d → c.pathSensitive = true) :
    Ensures (Stands (H := H) (P := P) g c j allowed k d m n) storeWithinLimit
      (fun _ x => Stands g c j allowed k d m (n + treeSize (Ledger.total g) (c.depthLimit - d)) x ∨
        Overran c j allowed x)
      (Fails c j fair allowed) := by
  have stored : Ensures (Stands (H := H) (P := P) g c j allowed k d m n) store
      (fun _ x => Stands g c j allowed k d m (n + treeSize (Ledger.total g) (c.depthLimit - d)) x ∨
        Overran c j allowed x)
      (Fails c j fair allowed) := by
    by_cases shallow : d < c.depthLimit
    · exact (holds_store restrained covers ranked shallow).imp fun _ _ => .inl
    · have deep : c.depthLimit ≤ d := by omega
      apply (overran_store restrained ranked (sensitive deep) deep).imp
      exact fun _ x hx => hx.imp_left fun hx => hx.mono (Nat.le_add_right _ _)
  apply Ensures.get
  intro x hx
  refine Ensures.of_eq ?_ hx
  split
  · exact (holds_onSearch (heads_announceConstraint Run.enduring_stationed restrained covers _)).bind
      fun _ => stored
  · exact stored

/-- Known states are the only ones that are queued at the limit. -/
theorem holds_consider :
    Ensures (Stands (H := H) (P := P) g c j allowed k d m n) consider
      (fun _ x => Stands g c j allowed k d m (n + treeSize (Ledger.total g) (c.depthLimit - d)) x ∨
        Overran c j allowed x)
      (Fails c j fair allowed) := by
  apply Ensures.bind (holds_onSearch (heads_isNew Run.enduring_stationed covers))
  intro isNew
  apply Ensures.bind (holds_look fun r h => congrArg Config.depthLimit h.config)
  intro limit
  apply Ensures.of_known
  rintro rfl
  apply Ensures.bind (holds_look fun r h => h.depth)
  intro depth
  apply Ensures.of_known
  rintro rfl
  split
  · apply (holds_onSearch (heads_announceConstraint Run.enduring_stationed restrained covers _)).imp
    exact fun _ x hx => .inl (hx.mono (Nat.le_add_right _ _))
  · rename_i passed
    apply Ensures.bind (holds_look fun r h => congrArg Config.pathSensitive h.config)
    intro sensitive
    apply Ensures.of_known
    rintro rfl
    split
    · rename_i queued
      apply holds_storeWithinLimit restrained covers ranked
      intro deep
      cases isNew with
      | true => simp [deep] at passed
      | false => simpa using queued
    · exact .pure fun x hx => .inl (hx.mono (Nat.le_add_right _ _))

end Storing

/-! ## Expanding -/

section Expanding

variable (restrained : Listener.Restrained (E := GraphEngine) (P := P) (fun _ => True) allowed)
  (covers : Failure.Covers (P := P) fair allowed c)

include restrained covers

/-- From a successor the search goes back to the state that it expands. -/
theorem holds_leave :
    Ensures (Stands (H := H) (P := P) g c j allowed 1 (d + 1) m n) leave
      (Ensures.onTurn (fun _ => Stands g c j allowed 0 d m n) fun _ => Holds g c allowed (Run.Limited g c j) n)
      (Fails c j fair allowed) := by
  have measured : Heads (L := L) c j fair allowed (Run.Stationed (P := P) g c j 1 (d + 1) m)
      (update Run.hasMemory) fun _ => Run.Stationed g c j 1 (d + 1) m :=
    heads_update Run.enduring_stationed fun r => .of_attended (.hasMemory r)
  apply Ensures.bind (holds_onSearch measured)
  intro enough
  split
  · apply Ensures.bind (holds_onSearch heads_backtrack)
    intro moved
    cases moved with
    | true =>
      apply Ensures.bind ((holds_onSearch heads_ascend).of_imp fun x hx => hx.imp fun r h => h.2)
      intro _
      apply Ensures.bind (holds_onSearch (heads_announce Run.enduring_stationed restrained covers (by decide)))
      exact fun _ => .pure fun x hx => hx
    | false =>
      refine .pure fun x hx => ?_
      cases hx.search.run.1
  · apply Ensures.bind (holds_onSearch (heads_announceMemoryLimit Run.enduring_stationed restrained covers))
    exact fun _ => .pure fun x hx => hx.imp fun r h => h.toLimited

variable [Checkable GraphEngine P] [Heuristic H GraphEngine P]
  (ranked : ∀ (r : Run GraphEngine P) (h : H) fault,
    (Heuristic.priority r h).1 = .error fault → fair (.fault fault))

include ranked

theorem holds_receive :
    Ensures (Stands (H := H) (P := P) g c j allowed k d m n) receive
      (fun _ x => Stands g c j allowed k d m (n + treeSize (Ledger.total g) (c.depthLimit - d)) x ∨
        Overran c j allowed x)
      (Fails c j fair allowed) := by
  have lasting : Run.Enduring (P := P) g c j (Run.Stationed g c j k d m) := Run.enduring_stationed
  have more (x : Expedition H GraphEngine P L) (hx : Stands g c j allowed k d m n x) :
      Stands g c j allowed k d m (n + treeSize (Ledger.total g) (c.depthLimit - d)) x ∨ Overran c j allowed x :=
    .inl (hx.mono (Nat.le_add_right _ _))
  have ends (r : Run GraphEngine P) : Run.Passes c.depthLimit r r.endsAtViolation.2 := by
    unfold Run.endsAtViolation
    split
    · split <;> exact .of_eq rfl rfl rfl rfl
    · exact .of_eq rfl rfl rfl rfl
  apply Ensures.bind (holds_glance _)
  intro violated
  split
  · apply Ensures.bind (holds_onSearch (heads_isNew lasting covers))
    intro _
    apply Ensures.bind (holds_onSearch (heads_announceViolation lasting restrained covers))
    intro _
    apply Ensures.bind (holds_onSearch (heads_update lasting ends))
    intro stops
    split
    · exact .pure more
    · apply Ensures.bind (holds_onSearch (heads_update lasting fun _ => .of_eq rfl rfl rfl rfl))
      exact fun _ => .pure more
  · apply Ensures.bind (holds_glance _)
    intro engine
    split
    · exact .pure more
    · exact (holds_consider restrained covers ranked).bind fun _ => .pure fun _ hx => hx

/-- Either one transition is taken, and what its target leads to is added to what is queued; or none is
    left. -/
theorem holds_generate (shallow : d < c.depthLimit) :
    Ensures (Stands (H := H) (P := P) g c j allowed 0 d m n) (generate ())
      (fun turn x => Ensures.onTurn
        (fun _ x => ∃ i, m = i + 1 ∧
          Stands g c j allowed 0 d i (n + treeSize (Ledger.total g) (c.depthLimit - (d + 1))) x)
        (fun _ => Holds g c allowed (Run.Limited g c j)
          (n + m * treeSize (Ledger.total g) (c.depthLimit - (d + 1)))) turn x ∨ Overran c j allowed x)
      (Fails c j fair allowed) := by
  have lapse := discipline_overruns (L := L) restrained c.depthLimit j
  apply Ensures.bind (holds_onSearch (heads_pollProbe Run.enduring_stationed restrained covers))
  intro _
  apply Ensures.bind (holds_onSearch (heads_forward shallow))
  intro moved
  cases moved with
  | true =>
    apply Ensures.bind (holds_onSearch (heads_descend covers.counted))
    intro _
    -- A transition was taken, and the state below has `i` left.
    apply holds_exists
    intro i
    apply holds_and
    intro more
    have single : n + treeSize (Ledger.total g) (c.depthLimit - (d + 1)) ≤
        n + m * treeSize (Ledger.total g) (c.depthLimit - (d + 1)) :=
      Nat.add_le_add_left (Nat.le_mul_of_pos_left _ (by omega)) n
    apply Ensures.bind (holds_onSearch (heads_advanced restrained covers))
    intro _
    apply Ensures.bind (holds_receive restrained covers ranked)
    intro stops
    split
    · exact .pure fun x hx => hx.imp_left fun hx => (hx.imp fun r h => h.toLimited).mono single
    · apply Ensures.of_or
      · apply (holds_leave restrained covers).imp
        intro turn x hx
        cases turn with
        | again _ => exact .inl ⟨i, more, hx⟩
        | stop reason => exact .inl (hx.mono single)
      · exact (Escapes.of_search (ensures_of_carried (ensures_leave_abiding lapse.excursion))).ensures
  | false =>
    apply Ensures.bind (holds_onSearch (heads_announce Run.enduring_stationed restrained covers (by decide)))
    exact fun _ => .pure fun x hx => .inl ((hx.imp fun r h => h.toLimited).mono (Nat.le_add_right _ _))

/-- All transitions of a state are taken one after the other.  What their targets lead to is paid for by
    what the state itself would lead to. -/
theorem holds_expand (shallow : d < c.depthLimit) {budget bound : Nat}
    (paid : n + m * treeSize (Ledger.total g) (c.depthLimit - (d + 1)) ≤ bound) (enough : m < budget) :
    Ensures (Stands (H := H) (P := P) g c j allowed 0 d m n) (expand budget)
      (fun _ x => Holds g c allowed (Run.Limited g c j) bound x ∨ Overran c j allowed x)
      (Fails c j fair allowed) := by
  let inv (m : Nat) (x : Expedition H GraphEngine P L) : Prop :=
    ∃ n, n + m * treeSize (Ledger.total g) (c.depthLimit - (d + 1)) ≤ bound ∧ Stands g c j allowed 0 d m n x
  have lapse := discipline_overruns (L := L) restrained c.depthLimit j
  suffices Ensures (inv m) (expand budget)
      (fun _ x => Holds g c allowed (Run.Limited g c j) bound x ∨ Overran c j allowed x)
      (Fails c j fair allowed) from this.of_imp fun x hx => ⟨n, paid, hx⟩
  refine Ensures.loop_of_variant_or inv ?_ ?_ ?_ ?_ enough ()
  · rintro m x ⟨n, le, hx⟩ -
    exact (hx.imp fun r h => h.toLimited).mono (by omega)
  · intro m _
    apply Ensures.of_exists
    intro n
    apply Ensures.of_known
    intro le
    apply (holds_generate restrained covers ranked shallow).imp
    intro turn x hx
    apply hx.imp_left
    intro hx
    cases turn with
    | stop reason => exact hx.mono le
    | again _ =>
      obtain ⟨i, rfl, here⟩ := hx
      refine ⟨i, Nat.lt_succ_self i, _, ?_, here⟩
      rw [Nat.succ_mul] at le
      omega
  · exact fun _ => Escapes.of_search (ensures_of_carried (ensures_generate_abiding lapse.excursion lapse.ranked))
  · exact fun _ _ => .inr

/-- What the best state leads to, its own expansion apart, takes the place of what it was counted for. -/
theorem holds_expandBest {budget : Nat} (enough : Ledger.total g < budget) :
    Ensures (Holds (H := H) (P := P) g c allowed (Run.Limited g c j) n) (expandBest budget ())
      (fun turn x => Ensures.onTurn (fun _ x => ∃ i < n, Holds g c allowed (Run.Limited g c j) i x)
        (fun _ x => x.search.Heeded allowed (Run.Limited g c j)) turn x ∨ Overran c j allowed x)
      (Fails c j fair allowed) := by
  apply Ensures.get
  intro x hx
  cases popped : x.strategy.frontier.pop? with
  | none =>
    apply Ensures.pure
    rintro _ rfl
    exact .inl hx.search
  | some best =>
    obtain ⟨q, frontier⟩ := best
    obtain ⟨genuine, shallow, load, stocked⟩ := hx.stocked.pop popped
    rw [toll, treeSize_sub shallow] at load
    have held : Holds g c allowed (Run.Limited g c j) _
        ({ x with strategy := { x.strategy with frontier } } : Expedition H GraphEngine P L) := ⟨hx.search, stocked⟩
    apply Ensures.set
    refine Ensures.of_eq ?_ held
    apply Ensures.bind (holds_onSearch (heads_change (Run.enduring_limited g c j) fun r =>
      .record (e := .expanding _ _ _) r trivial))
    intro _
    apply Ensures.bind (holds_onSearch (heads_restore genuine shallow.le name))
    intro _
    apply holds_exists
    intro m
    apply holds_and
    intro le
    have paid := Nat.add_le_add_left (Nat.mul_le_mul_right
      (treeSize (Ledger.total g) (c.depthLimit - (q.snapshot.pathLength + 1))) le)
      (frontier.load (toll g c.depthLimit))
    apply Ensures.bind (holds_onSearch (heads_announce Run.enduring_stationed restrained covers (by decide)))
    intro _
    apply Ensures.bind (holds_expand restrained covers ranked shallow paid (by omega))
    intro reason
    cases reason with
    | some reason => exact .pure fun x hx => hx.imp_left fun hx => hx.search
    | none => exact .pure fun x hx => hx.imp_left fun hx => ⟨_, by omega, hx⟩

/-- The search is about to begin. -/
structure Setout (g : StateGraph) (c : Config) (j : Journal) (r : Run GraphEngine P) : Prop where
  fresh : r.engine.Fresh g
  config : r.config = c
  journal : j.KeepsTo c.depthLimit r.journal

omit restrained covers ranked [Listener GraphEngine P L] [Checkable GraphEngine P] [Heuristic H GraphEngine P] in
theorem Setout.stationed {r : Run GraphEngine P} (h : Setout g c j r) :
    ∃ m ≤ Ledger.total g, Run.Stationed g c j 0 0 m { r with depth := Engine.pathLength r.engine } := by
  obtain ⟨choices, frames⟩ := h.fresh.frames
  have proper := (frames ▸ h.fresh.wellFormed.stacked).proper
  have root : r.engine.path.length = 0 := by rw [h.fresh.path]; rfl
  refine ⟨(Frame.remaining g { state := 0, choices }).length, ?_,
    ⟨h.fresh.wellFormed, h.config, h.journal⟩, root, ?_, Nat.zero_le _, ?_⟩
  · exact proper.length_remaining_le.trans (g.length_outgoing_le_total _)
  · simp [frames]
  · simp [frames]

theorem holds_expandAll {budget : Nat} (spare : Ledger.total g < budget) (enough : n < budget) :
    Ensures (fun x => Holds (H := H) (P := P) g c allowed (Run.Limited g c j) n x ∨ Overran c j allowed x)
      (loop (·.search.run.done) .terminated (expandBest budget) budget ())
      (fun _ x => x.search.Heeded allowed (Run.Limited g c j) ∨ Overran c j allowed x)
      (Fails c j fair allowed) := by
  have lapse := discipline_overruns (L := L) restrained c.depthLimit j
  have beyond : Escapes (H := H) c j allowed (expandBest budget ()) :=
    Escapes.of_search (ensures_of_carried
      (ensures_expandBest_abiding lapse.excursion lapse.ranked (fun _ h => h) budget))
  apply Ensures.of_or
  · refine Ensures.loop_of_variant_or (Holds g c allowed (Run.Limited g c j)) ?_ ?_ ?_ ?_ enough ()
    · exact fun _ x hx _ => hx.search
    · exact fun n _ => holds_expandBest restrained covers ranked spare
    · exact fun _ => beyond
    · exact fun _ _ => .inr
  · have stays : Escapes (H := H) c j allowed
        (loop (·.search.run.done) .terminated (expandBest budget) budget ()) :=
      Escapes.of_search (ensures_of_carried (ensures_loop_abiding lapse.excursion (fun _ h => h) _
        (fun _ => ensures_expandBest_abiding lapse.excursion lapse.ranked (fun _ h => h) budget) budget ()))
    exact stays.ensures

theorem holds_explore (positive : 0 < c.depthLimit) {budget : Nat} (enough : patience g c.depthLimit ≤ budget) :
    Ensures (fun x : Expedition H GraphEngine P L => x.search.Heeded allowed (Setout g c j)) (explore budget)
      (fun _ x => x.search.Heeded allowed (Run.Limited g c j) ∨ Overran c j allowed x)
      (Fails c j fair allowed) := by
  have lapse := discipline_overruns (L := L) restrained c.depthLimit j
  have finished (reason : StopReason) :
      Ensures (fun x : Expedition H GraphEngine P L =>
          x.search.Heeded allowed (Run.Limited g c j) ∨ Overran c j allowed x) (do
        onSearch (announce .searchFinished)
        return reason)
        (fun _ x => x.search.Heeded allowed (Run.Limited g c j) ∨ Overran c j allowed x)
        (Fails c j fair allowed) := by
    apply Ensures.of_or
    · have told : Heads (L := L) c j fair allowed (Run.Limited (P := P) g c j) (announce .searchFinished)
          fun _ => Run.Limited g c j := heads_announce (Run.enduring_limited g c j) restrained covers (by decide)
      apply ((ensures_onSearch_alone told).imp_fail fun f x hx => Or.inl hx).bind
      exact fun _ => .pure fun _ hx => .inl hx
    · have told : Escapes (H := H) c j allowed (onSearch (announce .searchFinished)) :=
        Escapes.of_search (ensures_onSearch_alone lapse.finish)
      apply told.ensures.bind
      exact fun _ => .pure fun _ hx => hx
  have cleared : Ensures (fun x : Expedition H GraphEngine P L => x.search.Heeded allowed (Setout g c j))
      (modify fun x => { x with strategy := x.strategy.clear }) (fun _ => Holds g c allowed (Setout g c j) 0)
      (Fails c j fair allowed) :=
    .modifying fun x hx => ⟨hx, by simp [clear], by simp [clear], by simp [clear, Frontier.load]⟩
  have placed : Heads (L := L) c j fair allowed (Setout (P := P) g c j)
      (change fun r => { r with depth := Engine.pathLength r.engine })
      fun _ r => ∃ m ≤ Ledger.total g, Run.Stationed g c j 0 0 m r :=
    .change fun r h => h.stationed
  apply cleared.bind
  intro _
  apply Ensures.bind (holds_onSearch placed)
  intro _
  apply holds_exists
  intro m
  apply holds_and
  intro le
  apply Ensures.bind (holds_onSearch (heads_announce Run.enduring_stationed restrained covers (by decide)))
  intro _
  apply Ensures.bind (holds_store restrained covers ranked positive)
  intro _
  rw [Nat.zero_add, Nat.sub_zero]
  refine Ensures.bind (?_ : Ensures _ _ (fun _ => Stands g c j allowed 0 0 m
    (treeSize (Ledger.total g) c.depthLimit)) _) fun _ => ?_
  · apply Ensures.modifying
    intro x hx
    split
    · rename_i popped
      obtain ⟨-, -, load, stocked⟩ := hx.stocked.pop popped
      exact ⟨hx.search, stocked.mono (by omega)⟩
    · exact hx
  -- The start costs as much as if it were queued once more.
  have whole : treeSize (Ledger.total g) c.depthLimit =
      1 + Ledger.total g * treeSize (Ledger.total g) (c.depthLimit - (0 + 1)) := treeSize_sub positive
  have shared := Nat.mul_le_mul_right (treeSize (Ledger.total g) (c.depthLimit - (0 + 1))) le
  have paid : treeSize (Ledger.total g) c.depthLimit +
      m * treeSize (Ledger.total g) (c.depthLimit - (0 + 1)) ≤ 2 * treeSize (Ledger.total g) c.depthLimit := by
    omega
  unfold patience at enough
  apply Ensures.bind (holds_expand restrained covers ranked positive paid (by omega))
  intro reason
  cases reason with
  | some reason => exact (finished reason).of_imp fun x hx => hx.imp_left fun hx => hx.search
  | none =>
    apply Ensures.bind (holds_expandAll restrained covers ranked (by omega) (by omega))
    exact finished

theorem holds_run (positive : 0 < c.depthLimit) {budget : Nat} (enough : patience g c.depthLimit ≤ budget) :
    Ensures (fun x : Expedition H GraphEngine P L => x.search.Heeded allowed (Setout g c j)) (run budget)
      (fun _ x => (x.search.Heeded allowed fun r => j.KeepsTo c.depthLimit r.journal) ∨ Overran c j allowed x)
      (Fails c j fair allowed) := by
  have launched : Ensures (fun x : Expedition H GraphEngine P L => x.search.Heeded allowed (Setout g c j))
      (onSearch (launch name)) (fun _ x => x.search.Heeded allowed (Setout g c j)) (Fails c j fair allowed) := by
    intro x hx
    obtain ⟨r, launched, chore⟩ := launch_eq name x.search
    obtain ⟨notes, recent, chores⟩ := chore.journal
    simp only [onSearch, launched]
    refine ⟨hx.listeners, hx.reporter, chore.engine.symm ▸ hx.run.fresh, chore.config.trans hx.run.config, ?_⟩
    exact hx.run.journal.trans ⟨notes, recent, fun e member => e.keepsTo_of_isChore _ (chores e member)⟩
  apply launched.bind
  intro _
  apply Ensures.bind (holds_explore restrained covers ranked positive enough)
  intro reason x hx
  cases hx with
  | inl kept => exact .inl ⟨kept.listeners, kept.reporter, kept.run.journal⟩
  | inr overran => exact .inr ⟨overran.1, overran.2.listeners, overran.2.reporter, overran.2.run⟩

end Expanding

/-! ## Larger budgets -/

section Budgets

variable [Checkable GraphEngine P] [Heuristic H GraphEngine P] {budget budget' : Nat} (le : budget ≤ budget')

include le

theorem outlasts_expand :
    Outlasts (expand budget : ExpeditionM H GraphEngine P L _) (expand budget') :=
  .loop le (fun _ => .refl _) ()

theorem outlasts_expandBest (u : Unit) :
    Outlasts (expandBest budget u : ExpeditionM H GraphEngine P L _) (expandBest budget' u) := by
  refine .bind (.refl _) fun x => ?_
  split
  · exact .refl _
  · refine .bind (.refl _) fun _ => .bind (.refl _) fun _ => .bind (.refl _) fun _ => .bind (.refl _) fun _ => ?_
    exact .bind (outlasts_expand le) fun _ => .refl _

theorem outlasts_explore :
    Outlasts (explore budget : ExpeditionM H GraphEngine P L _) (explore budget') := by
  refine .bind (.refl _) fun _ => .bind (.refl _) fun _ => .bind (.refl _) fun _ => .bind (.refl _) fun _ =>
    .bind (.refl _) fun _ => .bind (outlasts_expand le) fun reason => ?_
  cases reason with
  | some reason => exact .refl _
  | none => exact .bind (.loop le (outlasts_expandBest le) ()) fun _ => .refl _

theorem outlasts_run : Outlasts (run budget : ExpeditionM H GraphEngine P L _) (run budget') :=
  .bind (.refl _) fun _ => .bind (outlasts_explore le) fun _ => .refl _

end Budgets

end BestFirst

/-! ## Searches -/

namespace Search

variable {E P L : Type}

/-- No step since led below the depth limit. -/
def KeptDepth (s t : Search E P L) : Prop :=
  s.run.journal.KeepsTo s.run.config.depthLimit t.run.journal

/-- The search is sensitive to paths, and since then a state at the depth limit or beyond was stored. -/
def OverranDepth (s t : Search E P L) : Prop :=
  s.run.config.pathSensitive = true ∧ s.run.journal.Overruns s.run.config.depthLimit t.run.journal

end Search

section Limits

variable {H P L : Type} [Checkable GraphEngine P] [Listener GraphEngine P L] [Heuristic H GraphEngine P]
  {g : StateGraph} {fair : Failure → Prop} {allowed : L → Prop} {s : Search GraphEngine P L}

omit [Checkable GraphEngine P] in
theorem Failure.covers_of_candid {c : Config}
    (candid : Listener.Candid (E := GraphEngine) (P := P) (fun _ => True) allowed) :
    Failure.Covers (P := P) (· ≠ .outOfFuel) allowed c where
  told := by
    intro event f r broken
    apply broken.fair candid fun _ _ _ _ => trivial
    · intro f own eq
      simp [eq, Failure.isOwn] at own
    · exact fun f event name h => Failure.raisedBy_ne_outOfFuel h event name
    · exact fun r f _ failed => Run.isNew_error_ne_outOfFuel failed
  asked := fun f r r' _ failed => Run.isNew_error_ne_outOfFuel failed
  counted := fun _ => by simp

omit [Checkable GraphEngine P] in
/-- Where nobody listens and states are not matched by depth, nothing fails. -/
theorem Failure.covers_of_plain {c : Config} (plain : c.matchByMinDepth = false)
    (representable : c.depthLimit < wordLimit) :
    Failure.Covers (P := P) (L := L) (fun _ => False) (fun _ => False) c where
  told := by
    intro event f r broken
    obtain ⟨l, r', none, -⟩ := broken
    exact none
  asked := by
    intro f r r' config failed
    have byDepth := (Run.byDepth_of_isNew_error failed).2
    simp [config, plain] at byDepth
  counted := fun overflow => by omega

theorem BestFirst.ensures_limited
    (restrained : Listener.Restrained (E := GraphEngine) (P := P) (fun _ => True) allowed)
    (covers : Failure.Covers (P := P) fair allowed s.run.config)
    (ranked : ∀ (r : Run GraphEngine P) (h : H) fault,
      (Heuristic.priority r h).1 = .error fault → fair (.fault fault))
    (listeners : ∀ l ∈ s.listeners, allowed l) (reporter : ∀ l ∈ s.reporter, allowed l)
    (fresh : s.run.engine.Fresh g) (positive : 0 < s.run.config.depthLimit) (b : BestFirst H GraphEngine)
    {budget : Nat} (enough : patience g s.run.config.depthLimit ≤ budget) :
    Ensures (· = { strategy := b, search := s }) (run budget)
      (fun _ x => s.KeptDepth x.search ∨ s.OverranDepth x.search)
      fun f x => s.KeptDepth x.search ∧ fair f ∨ s.OverranDepth x.search := by
  have start : s.Heeded allowed (Setout g s.run.config s.run.journal) :=
    ⟨listeners, reporter, fresh, rfl, .refl _ _⟩
  have ran : Ensures (fun x : Expedition H GraphEngine P L =>
      x.search.Heeded allowed (Setout g s.run.config s.run.journal)) (run budget) _ _ :=
    holds_run restrained covers ranked positive enough
  apply ((ran.of_eq start).imp _).imp_fail
  · intro f x hx
    exact hx.imp (fun kept => kept.run) fun overran => ⟨overran.1, overran.2.run⟩
  · intro _ x hx
    exact hx.imp (fun kept => kept.run) fun overran => ⟨overran.1, overran.2.run⟩

/-- Over a graph with its edges in any order, whatever heuristic, properties, configuration and queue it has
    and whatever restrained listeners do, a best-first search that starts at the root takes no step below its
    depth limit and comes to its end, unless it is sensitive to paths and stores a state at the limit.  If it
    is not, a larger budget changes nothing.  Without listeners the search does not fail, unless states are
    matched by depth or the heuristic fails. -/
theorem best_first_search_keeps_to_depth_limit
    (restrained : Listener.Restrained (E := GraphEngine) (P := P) (fun _ => True) allowed)
    (candid : Listener.Candid (E := GraphEngine) (P := P) (fun _ => True) allowed)
    (listeners : ∀ l ∈ s.listeners, allowed l) (reporter : ∀ l ∈ s.reporter, allowed l)
    (fresh : s.run.engine.Fresh g) (positive : 0 < s.run.config.depthLimit) (b : BestFirst H GraphEngine)
    {budget : Nat} (enough : BestFirst.patience g s.run.config.depthLimit ≤ budget) :
    Ensures (· = { strategy := b, search := s }) (BestFirst.run budget)
      (fun _ x => s.KeptDepth x.search ∨ s.OverranDepth x.search)
      (fun f x => s.KeptDepth x.search ∧ f ≠ .outOfFuel ∨ s.OverranDepth x.search) ∧
    (s.run.config.pathSensitive = false →
      BestFirst.run budget { strategy := b, search := s } =
        BestFirst.run (BestFirst.patience g s.run.config.depthLimit) { strategy := b, search := s }) ∧
    (s.listeners = [] → s.reporter = none → s.run.config.matchByMinDepth = false →
      s.run.config.depthLimit < wordLimit →
      (∀ (r : Run GraphEngine P) (h : H), ∃ priority, (Heuristic.priority r h).1 = .ok priority) →
      Ensures (· = { strategy := b, search := s }) (BestFirst.run budget)
        (fun _ x => s.KeptDepth x.search ∨ s.OverranDepth x.search)
        fun _ x => s.OverranDepth x.search) := by
  have ends {budget : Nat} (enough : BestFirst.patience g s.run.config.depthLimit ≤ budget) :=
    BestFirst.ensures_limited restrained (Failure.covers_of_candid candid)
      (fun r (h : H) fault _ => by simp) listeners reporter fresh positive b enough
  refine ⟨ends enough, ?_, ?_⟩
  · intro insensitive
    obtain ⟨x, spent⟩ | same := BestFirst.outlasts_run enough { strategy := b, search := s }
    · have unspent := ends (Nat.le_refl _) _ rfl
      rw [spent] at unspent
      cases unspent with
      | inl kept => exact absurd rfl kept.2
      | inr overran => simp [Search.OverranDepth, insensitive] at overran
    · exact same
  · intro nobody none plain representable ranked
    have alone : Listener.Restrained (E := GraphEngine) (P := P) (fun _ => True) fun _ : L => False :=
      fun _ _ _ absent => absent.elim
    have ran := BestFirst.ensures_limited alone (Failure.covers_of_plain plain representable)
      (fun r (h : H) fault failed => by
        obtain ⟨priority, ok⟩ := ranked r h
        rw [ok] at failed
        cases failed) (by simp [nobody]) (by simp [none]) fresh positive b enough
    apply ran.imp_fail
    exact fun f x hx => hx.resolve_left fun kept => kept.2

end Limits

theorem tangle_search_keeps_to_depth_limit : ∃ e, GraphEngine.ofGraph .tangle = .ok e ∧ ∀ sensitive, ∃ s,
    Search.ofEngine (e.withRandomChoices 3)
      { depthLimit := 2, pathSensitive := sensitive, queueLimit := some 2 } = .ok s ∧
    ∀ budget, BestFirst.patience .tangle 2 ≤ budget →
      let t : Search GraphEngine Subject (RuleListener Subject) :=
        (s.addProperty (.forbidden { states := [1] })).addListener meddler
      Ensures (· = { strategy := { heuristic := (⟨⟩ : DeepestFirst) }, search := t }) (BestFirst.run budget)
        (fun _ x => t.KeptDepth x.search ∨ t.OverranDepth x.search)
        (fun f x => t.KeptDepth x.search ∧ f ≠ .outOfFuel ∨ t.OverranDepth x.search) ∧
      (sensitive = false →
        ∃ o x, BestFirst.run budget { strategy := { heuristic := (⟨⟩ : BreadthFirst) }, search := s } = .ok o x ∧
          s.KeptDepth x.search) := by
  obtain ⟨e, made⟩ : ∃ e, GraphEngine.ofGraph .tangle = .ok e := ⟨_, rfl⟩
  have fresh := (GraphEngine.fresh_ofGraph made).withRandomChoices 3
  refine ⟨e, made, fun sensitive => ⟨.fresh (e.withRandomChoices 3) _, rfl, ?_⟩⟩
  intro budget enough t
  have listeners : t.listeners = [meddler] := rfl
  have ready : t.run.engine.Fresh .tangle := fresh
  constructor
  · exact (best_first_search_keeps_to_depth_limit (RuleListener.restrained_of_isModest _)
      (RuleListener.candid _) (by simpa [listeners] using meddler_isModest) (by intro l member; cases member)
      ready Nat.two_pos _ enough).1
  · rintro rfl
    have small : 2 < wordLimit := by decide
    let s : Search GraphEngine Subject (RuleListener Subject) :=
      .fresh (e.withRandomChoices 3) { depthLimit := 2, pathSensitive := false, queueLimit := some 2 }
    have ran := (best_first_search_keeps_to_depth_limit (s := s) (RuleListener.restrained_of_isModest _)
      (RuleListener.candid _) (by intro l member; cases member) (by intro l member; cases member) fresh
      Nat.two_pos { heuristic := (⟨⟩ : BreadthFirst) } enough).2.2 rfl rfl rfl small fun r h => ⟨_, rfl⟩
    have insensitive (x : Search GraphEngine Subject (RuleListener Subject)) : ¬ s.OverranDepth x := by
      intro overran
      cases overran.1
    obtain ⟨o, x, ended, kept⟩ := ran.exists_ok rfl fun f x => insensitive x.search
    exact ⟨o, x, ended, kept.resolve_right (insensitive x.search)⟩

/-- Two transitions lead to a state that leads on. -/
def StateGraph.doubled : StateGraph :=
  { name := "doubled"
    states := [
      { edges := [{ target := 1, label := "a" }, { target := 1, label := "b" }] },
      { edges := [{ target := 2, label := "c" }] }, {}] }

/-- The second way to a state at the limit gets it queued, and its successor lies below the limit. -/
theorem doubled_depth_limit_overrun : ∃ e s, GraphEngine.ofGraph .doubled = .ok e ∧
    Search.ofEngine e { depthLimit := 1, pathSensitive := true } = .ok s ∧
    let start : Expedition BreadthFirst GraphEngine Subject (RuleListener Subject) :=
      { strategy := { heuristic := ⟨⟩ }, search := s }
    ∃ o x, BestFirst.run 20 start = .ok o x ∧ o.reason = .exhausted ∧ ¬ s.KeptDepth x.search := by
  refine ⟨_, .fresh _ { depthLimit := 1, pathSensitive := true }, rfl, rfl, ?_⟩
  intro start
  have ended : ∃ o x, BestFirst.run 20 start = .ok o x ∧ o.reason = .exhausted ∧
      ∃ entry ∈ x.search.run.journal.entriesFrom start.search.run.journal.length, ¬ entry.keepsTo 1 :=
    exists_ok_of_check (by decide +kernel)
  obtain ⟨o, x, ran, reason, entry, member, deep⟩ := ended
  exact ⟨o, x, ran, reason, fun kept => deep (kept.of_mem_entriesFrom member)⟩

end Statewalk
