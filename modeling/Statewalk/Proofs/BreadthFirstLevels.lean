import Statewalk.Proofs.Detection

/-! # Breadth-first levels

A best-first search that ranks states by their depth goes through a graph level by level.  While it
expands a state, it knows all states that are as near as that one; its queue holds states of that
level and the next one only, those of the nearer level first.  So each state is found over a shortest
way, and the first forbidden state that is found is a nearest one.

* `Chronicle` — what was announced of the states that are known.
* `Leveled` — what holds between two moves of the search.
-/

namespace Statewalk

open GraphEngine (Enters)

/-! ## Announcements -/

/-- The announcement tells of a state that is about to be expanded or has been. -/
def Bulletin.isExpansion (b : Bulletin) : Bool :=
  b.event = .stateRestored || b.event = .stateProcessed

/-- Each known state was first announced when it was advanced into, as far from the initial state as it
    is; states were expanded in the order of their distances, so far up to a given one. -/
structure Chronicle (g : StateGraph) (visited : List StateId) (depth : Nat) (bs : List Bulletin) :
    Prop where
  known : ∀ b ∈ bs, b.state ∈ visited
  first : ∀ s ∈ visited, ∃ b, bs.find? (·.state = s) = some b ∧ g.Distance s b.depth ∧
    (s ≠ 0 → b.event = .stateAdvanced)
  ordered : (bs.filter Bulletin.isExpansion).Pairwise (·.depth ≤ ·.depth)
  expanded : ∀ b ∈ bs, b.isExpansion = true → g.Distance b.state b.depth ∧ b.depth ≤ depth

namespace Chronicle

variable {g : StateGraph} {visited : List StateId} {depth : Nat} {bs : List Bulletin} {b : Bulletin}

theorem start {b' : Bulletin} (state : b.state = 0) (depth : b.depth = 0) (state' : b'.state = 0)
    (waits : b.isExpansion = false) (waits' : b'.isExpansion = false) : Chronicle g [0] 0 [b, b'] := by
  refine ⟨?_, ?_, ?_, ?_⟩
  · simp [state, state']
  · intro s hs
    rw [List.mem_singleton.1 hs]
    refine ⟨b, by simp [state], ?_, fun absurd => (absurd rfl).elim⟩
    rw [depth]
    exact g.distance_root
  · simp [waits, waits']
  · simp [waits, waits']

theorem first_append (h : Chronicle g visited depth bs) (b : Bulletin) : ∀ s ∈ visited,
    ∃ b', (bs ++ [b]).find? (·.state = s) = some b' ∧ g.Distance s b'.depth ∧
      (s ≠ 0 → b'.event = .stateAdvanced) := by
  intro s hs
  obtain ⟨b', found, rest⟩ := h.first s hs
  refine ⟨b', ?_, rest⟩
  rw [List.find?_append, found]
  rfl

/-- What is announced of states that are not expanded does not count as an expansion. -/
theorem expansions_append (h : Chronicle g visited depth bs) (waits : b.isExpansion = false) :
    ((bs ++ [b]).filter Bulletin.isExpansion).Pairwise (·.depth ≤ ·.depth) ∧
      ∀ b' ∈ bs ++ [b], b'.isExpansion = true → g.Distance b'.state b'.depth ∧ b'.depth ≤ depth := by
  refine ⟨by simpa [waits] using h.ordered, List.forall_mem_append.2 ⟨h.expanded, ?_⟩⟩
  simp [waits]

/-- A known state is mentioned again. -/
theorem mention (h : Chronicle g visited depth bs) (known : b.state ∈ visited)
    (waits : b.isExpansion = false) : Chronicle g visited depth (bs ++ [b]) := by
  obtain ⟨ordered, expanded⟩ := h.expansions_append waits
  have known : ∀ b' ∈ bs ++ [b], b'.state ∈ visited :=
    List.forall_mem_append.2 ⟨h.known, List.forall_mem_singleton.2 known⟩
  exact ⟨known, h.first_append b, ordered, expanded⟩

/-- A state is found. -/
theorem find (h : Chronicle g visited depth bs) (unknown : b.state ∉ visited)
    (distance : g.Distance b.state b.depth) (advanced : b.event = .stateAdvanced) :
    Chronicle g (b.state :: visited) depth (bs ++ [b]) := by
  obtain ⟨ordered, expanded⟩ := h.expansions_append (b := b) (by simp [Bulletin.isExpansion, advanced])
  refine ⟨?_, ?_, ordered, expanded⟩
  · refine List.forall_mem_append.2 ⟨?_, List.forall_mem_singleton.2 List.mem_cons_self⟩
    intro b' hb'
    exact List.mem_cons_of_mem _ (h.known b' hb')
  · intro s hs
    rcases List.mem_cons.1 hs with rfl | hs
    · -- Nothing was announced of the state before.
      have unmentioned : bs.find? (·.state = b.state) = none := by
        rw [List.find?_eq_none]
        intro b' hb' same
        exact unknown (of_decide_eq_true same ▸ h.known b' hb')
      refine ⟨b, ?_, distance, fun _ => advanced⟩
      rw [List.find?_append, unmentioned]
      simp
    · exact h.first_append b s hs

/-- A known state, not nearer than those that were expanded, is expanded. -/
theorem expand (h : Chronicle g visited depth bs) (known : b.state ∈ visited)
    (distance : g.Distance b.state b.depth) (later : depth ≤ b.depth) :
    Chronicle g visited b.depth (bs ++ [b]) := by
  refine ⟨?_, h.first_append b, ?_, ?_⟩
  · exact List.forall_mem_append.2 ⟨h.known, List.forall_mem_singleton.2 known⟩
  · rw [List.filter_append, List.pairwise_append]
    refine ⟨h.ordered, (List.pairwise_singleton _ b).filter _, ?_⟩
    intro b' hb' b'' hb''
    obtain ⟨mem, expansion⟩ := List.mem_filter.1 hb'
    rw [List.mem_singleton.1 (List.mem_filter.1 hb'').1]
    exact Nat.le_trans (h.expanded b' mem expansion).2 later
  · refine List.forall_mem_append.2 ⟨?_, List.forall_mem_singleton.2 fun _ => ⟨distance, Nat.le_refl _⟩⟩
    intro b' hb' expansion
    obtain ⟨far, le⟩ := h.expanded b' hb' expansion
    exact ⟨far, Nat.le_trans le later⟩

end Chronicle

/-! ## Order of the queue -/

theorem Key.priority_le_of_before {k l : Key} (h : k.before l = true) : k.priority ≤ l.priority := by
  simp only [before, Bool.or_eq_true, Bool.and_eq_true, decide_eq_true_eq] at h
  omega

theorem Key.priority_le_of_not_before {k l : Key} (h : k.before l = false) :
    l.priority ≤ k.priority := by
  simp only [before, Bool.or_eq_false_iff, decide_eq_false_iff_not] at h
  omega

/-- The entries are in the order of their priorities. -/
def Frontier.Ranked {α : Type} (es : List (Key × α)) : Prop :=
  es.Pairwise (·.1.priority ≤ ·.1.priority)

theorem Frontier.Ranked.insertInto {α : Type} {es : List (Key × α)} (h : Ranked es) (k : Key) (a : α) :
    Ranked (insertInto k a es) := by
  induction es with
  | nil => exact List.pairwise_singleton _ _
  | cons e es ih =>
    obtain ⟨least, others⟩ := List.pairwise_cons.1 h
    -- The entry is put here if its key is less, and farther down otherwise.
    cases before : k.before e.1 with
    | true =>
      have le := Key.priority_le_of_before before
      rw [Frontier.insertInto, if_pos before]
      refine List.pairwise_cons.2 ⟨List.forall_mem_cons.2 ⟨le, ?_⟩, h⟩
      intro e' he'
      exact Int.le_trans le (least e' he')
    | false =>
      have le := Key.priority_le_of_not_before before
      rw [Frontier.insertInto, if_neg (by simp [before])]
      refine List.pairwise_cons.2 ⟨?_, ih others⟩
      intro e' he'
      rcases mem_insertInto.1 he' with rfl | he'
      · exact le
      · exact least e' he'

/-! ## Levels -/

/-- The states up to a level are known. -/
def Knows (g : StateGraph) (visited : List StateId) (depth : Nat) : Prop :=
  ∀ s n, g.Distance s n → n ≤ depth → s ∈ visited

namespace Knows

variable {g : StateGraph} {visited : List StateId} {depth : Nat} {s : StateId} {tr : Transition}

theorem start (g : StateGraph) : Knows g [0] 0 := by
  intro s n distance le
  rw [Nat.le_zero.1 le] at distance
  exact List.mem_singleton.2 distance.eq_root

theorem mono (h : Knows g visited depth) {visited' : List StateId}
    (sub : ∀ s ∈ visited, s ∈ visited') : Knows g visited' depth :=
  fun s n distance le => sub s (h s n distance le)

/-- An unknown successor of a state is one step farther than the state. -/
theorem distance_successor (h : Knows g visited depth) (distance : g.Distance s depth)
    (out : tr ∈ g.outgoing s) (unknown : tr.state ∉ visited) : g.Distance tr.state (depth + 1) := by
  obtain ⟨ts, route, length⟩ := distance.1
  obtain ⟨n, least⟩ := (route.outgoing out).reachable.exists_distance
  have le : n ≤ depth + 1 := by
    simpa [length] using least.le (route.outgoing out)
  -- All states that are as near as the source are known.
  have ge : ¬ n ≤ depth := fun near => unknown (h _ n least near)
  rwa [show n = depth + 1 by omega] at least

/-- When the successors of all states of a level are known, the next level is. -/
theorem succ (h : Knows g visited depth)
    (closed : ∀ s ∈ visited, g.Distance s depth → ∀ tr ∈ g.outgoing s, tr.state ∈ visited) :
    Knows g visited (depth + 1) := by
  intro s n distance le
  -- A state of the next level is the successor of one of this level.
  rcases Nat.lt_or_eq_of_le le with lt | rfl
  · exact h s n distance (Nat.le_of_lt_succ lt)
  · obtain ⟨before, nearer, tr, out, rfl⟩ := distance.predecessor
    exact closed before (h before depth nearer (Nat.le_refl _)) nearer tr out

end Knows

namespace BestFirst

variable {P : Type} {g : StateGraph} {c : Config} {ps : List (Watched P)} {bad : StateId → Bool}
  {A : Audience GraphEngine P} {b b' : BestFirst BreadthFirst GraphEngine} {r s : Run GraphEngine P}
  {top : Frame} {rest : List Frame} {edge : Edge}
  {p q : BestFirst BreadthFirst GraphEngine × Run GraphEngine P}

/-- A queued state is ranked by its distance, which is that of a level or of the next one. -/
structure Waits (g : StateGraph) (depth : Nat) (entry : Key × Queued GraphEngine) : Prop where
  priority : entry.1.priority = entry.2.snapshot.pathLength
  distance : g.Distance entry.2.state entry.2.snapshot.pathLength
  least : depth ≤ entry.2.snapshot.pathLength
  most : entry.2.snapshot.pathLength ≤ depth + 1

/-- What holds of a breadth-first search at the level of the state that it expands. -/
structure Leveled (g : StateGraph) (p : BestFirst BreadthFirst GraphEngine × Run GraphEngine P) :
    Prop where
  distance : g.Distance p.2.engine.current p.2.depth
  knows : Knows g p.2.engine.visited p.2.depth
  waits : ∀ entry ∈ p.1.frontier.entries, Waits g p.2.depth entry
  ranked : Frontier.Ranked p.1.frontier.entries
  chronicle : Chronicle g p.2.engine.visited p.2.depth p.2.journal.bulletins

theorem Leveled.start {h : BreadthFirst} (start : r.AtStart g c ps bad)
    (unannounced : r.journal.bulletins = []) :
    Leveled g (started h, (r.said A .searchStarted).said A .stateStored) := by
  obtain ⟨choices, frames⟩ := start.fresh.frames
  have state : r.engine.current = 0 := by rw [GraphEngine.current_of_frames frames]
  have depth := start.depth_eq
  refine ⟨?_, ?_, nofun, .nil, ?_⟩
  · show g.Distance r.engine.current r.depth
    rw [state, depth]
    exact g.distance_root
  · show Knows g r.engine.visited r.depth
    rw [start.fresh.visited, depth]
    exact .start g
  · show Chronicle g r.engine.visited r.depth _
    rw [start.fresh.visited, depth, Run.bulletins_said, Run.bulletins_said, unannounced]
    exact .start state depth state rfl rfl

section Moves

variable (h : Leveled g (b, r)) (expanding : Expanding g c ps [] (b, r))
  (enters : Enters g r.engine top rest edge)

include h enters

theorem Leveled.distance_target (unseen : edge.target ∉ r.engine.visited) :
    g.Distance edge.target (r.depth + 1) := by
  have distance : g.Distance r.engine.current r.depth := h.distance
  rw [GraphEngine.current_of_frames enters.frames] at distance
  exact h.knows.distance_successor distance enters.outgoing unseen

theorem Leveled.chronicle_onward :
    Chronicle g (r.onward A).engine.visited r.depth (r.onward A).journal.bulletins := by
  have chronicle : Chronicle g r.engine.visited r.depth r.journal.bulletins := h.chronicle
  have state : ((r.onward A).bulletin A.size .stateAdvanced).state = edge.target := by
    show Engine.stateId (r.onward A).engine = _
    rw [Run.engine_onward enters]
    rfl
  rw [Run.bulletins_onward]
  by_cases seen : edge.target ∈ r.engine.visited
  · rw [Run.visited_onward_of_mem enters seen]
    exact chronicle.mention (state ▸ seen) rfl
  · have visited : (r.onward A).engine.visited =
        ((r.onward A).bulletin A.size .stateAdvanced).state :: r.engine.visited := by
      rw [state]
      simp [Run.engine_onward enters, seen]
    rw [visited]
    refine chronicle.find (state ▸ seen) ?_ rfl
    rw [state]
    exact h.distance_target enters seen

include expanding

/-- The search returns from a successor, which may have been queued in between. -/
theorem Leveled.returned (engine : s.engine = (r.onward A).engine) (depth : s.depth = r.depth + 1)
    (chronicle : Chronicle g (r.onward A).engine.visited r.depth s.journal.bulletins)
    (waits : ∀ entry ∈ b'.frontier.entries, Waits g r.depth entry)
    (ranked : Frontier.Ranked b'.frontier.entries) : Leveled g (b', s.retreated A) := by
  have frames : s.engine.frames = _ := engine ▸ Run.frames_onward enters
  have current : (s.retreated A).engine.current = top.state := by
    rw [Run.engine_retreated frames, GraphEngine.current_of_frames (GraphEngine.frames_popped _)]
    rfl
  have depth : (s.retreated A).depth = r.depth := by
    show s.depth - 1 = _
    rw [depth]
    rfl
  have distance : g.Distance r.engine.current r.depth := h.distance
  rw [GraphEngine.current_of_frames enters.frames] at distance
  have visited : ∀ t ∈ r.engine.visited, t ∈ (s.retreated A).engine.visited := by
    intro t ht
    rw [visited_returned enters engine, Run.engine_onward enters]
    exact (GraphEngine.mem_visited_enter edge _).2 (.inr ht)
  refine ⟨?_, ?_, ?_, ranked, ?_⟩
  · rw [current, depth]
    exact distance
  · rw [depth]
    exact h.knows.mono visited
  · rw [depth]
    exact waits
  · rw [depth, Run.bulletins_retreated]
    refine .mention (visited_returned enters engine ▸ chronicle) ?_ rfl
    show (s.retreated A).engine.current ∈ _
    rw [current]
    exact visited _ (expanding.afoot.met top (enters.frames ▸ List.mem_cons_self))

theorem Leveled.passed : Leveled g (b, (r.onward A).retreated A) :=
  h.returned expanding enters rfl rfl (h.chronicle_onward enters) h.waits h.ranked

theorem Leveled.stored (valid : g.validate = .ok ()) (small : g.size < 2 ^ 63)
    (unseen : edge.target ∉ r.engine.visited) {i : Int} {h' : BreadthFirst}
    (ranks : Heuristic.Ranks b.heuristic ((r.onward A).judged true r.depths) i h') :
    Leveled g (b.enqueued i h' { snapshot := (r.onward A).engine.snapshot, state := edge.target },
      (((r.onward A).judged true r.depths).said A .stateStored).retreated A) := by
  have shallow : r.depth < g.size := expanding.depth_lt valid
  obtain ⟨m, j, priority⟩ := ranks
  -- The priority is the depth as a signed word, which does not wrap around here.
  have rank : i = r.depth + 1 := by
    have word : signedWord (r.depth + 1) = i := Except.ok.inj (congrArg Prod.fst priority)
    rw [← word, signedWord_of_lt (by omega)]
    rfl
  have pathLength : (r.onward A).engine.snapshot.pathLength = r.depth + 1 := by
    have depth : r.depth + 1 = r.engine.frames.length := expanding.afoot.depth
    show (r.onward A).engine.frames.length - 1 = _
    rw [Run.frames_onward enters, depth, enters.frames]
    rfl
  refine h.returned expanding enters (s := ((r.onward A).judged true r.depths).said A .stateStored)
    rfl rfl ?_ ?_ ?_
  · rw [Run.bulletins_said]
    refine (h.chronicle_onward enters).mention ?_ rfl
    show (r.onward A).engine.current ∈ _
    rw [Run.engine_onward enters]
    exact (GraphEngine.mem_visited_enter edge _).2 (.inl rfl)
  · intro entry hentry
    rcases Frontier.mem_insertInto.1 hentry with rfl | hentry
    · refine ⟨?_, ?_, ?_, ?_⟩
      · show i = ((r.onward A).engine.snapshot.pathLength : Int)
        rw [rank, pathLength]
        rfl
      · show g.Distance edge.target (r.onward A).engine.snapshot.pathLength
        rw [pathLength]
        exact h.distance_target enters unseen
      · show r.depth ≤ (r.onward A).engine.snapshot.pathLength
        omega
      · exact Nat.le_of_eq pathLength
    · exact h.waits entry hentry
  · exact h.ranked.insertInto _ _

end Moves

theorem Leveled.completed (h : Leveled g (b, r)) (expanding : Expanding g c ps [] (b, r))
    (stuck : Engine.forward r.engine = (false, r.engine.stall)) : Leveled g (b, r.halted A) := by
  obtain ⟨top, rest, frames⟩ := expanding.afoot.exists_frames
  have engine : (r.halted A).engine = r.engine.stall := Run.engine_halted stuck
  have current : (r.halted A).engine.current = r.engine.current := by
    rw [engine]
    rfl
  have visited : (r.halted A).engine.visited = r.engine.visited := by
    rw [engine]
    rfl
  have distance : g.Distance (r.halted A).engine.current r.depth := current ▸ h.distance
  refine ⟨distance, visited ▸ h.knows, h.waits, h.ranked, ?_⟩
  rw [visited, Run.bulletins_halted]
  refine h.chronicle.expand (b := (r.halted A).bulletin A.size .stateProcessed) ?_ distance
    (Nat.le_refl _)
  show (r.halted A).engine.current ∈ r.engine.visited
  rw [current, GraphEngine.current_of_frames frames]
  exact expanding.afoot.met top (frames ▸ List.mem_cons_self)

/-- When only states of the next level are queued, the next level is known. -/
theorem Leveled.knows_next (h : Leveled g (b, r)) (rested : Rested g c ps [] (b, r))
    (later : ∀ entry ∈ b.frontier.entries, r.depth < entry.2.snapshot.pathLength) :
    Knows g r.engine.visited (r.depth + 1) := by
  have ledger := rested.ledger
  rw [StateGraph.sealed_nil] at ledger
  refine h.knows.succ fun s visit distance tr out => ledger.target_mem visit ?_ out
  -- An open state is queued, and hence not of this level.
  rintro f hf rfl
  obtain ⟨entry, hentry, open'⟩ := List.mem_flatMap.1 hf
  obtain ⟨top, rest, path, held, -⟩ := rested.kept entry hentry
  rw [held.frames] at open'
  have state : f.state = entry.2.state := by
    rw [List.mem_singleton.1 open', held.state]
  have same := (h.waits entry hentry).distance.unique (state ▸ distance)
  exact Nat.ne_of_gt (later entry hentry) same

theorem Leveled.resumed (h : Leveled g (b, r)) (rested : Rested g c ps [] (b, r)) {key : Key}
    {best : Queued GraphEngine} {others : List (Key × Queued GraphEngine)}
    (entries : b.frontier.entries = (key, best) :: others) :
    Leveled g ({ b with frontier := { entries := others } }, r.resumed A best.snapshot) := by
  have queued : (key, best) ∈ b.frontier.entries := entries ▸ List.mem_cons_self
  obtain ⟨top, rest, path, held, -⟩ := rested.kept _ queued
  obtain ⟨priority, distance, least, most⟩ := h.waits _ queued
  simp only at priority distance least most
  -- Priorities are distances, so the first entry is a nearest one.
  have after : ∀ entry ∈ others, best.snapshot.pathLength ≤ entry.2.snapshot.pathLength := by
    intro entry hentry
    have ranked := h.ranked
    rw [entries] at ranked
    have le := (List.pairwise_cons.1 ranked).1 entry hentry
    rw [priority, (h.waits entry (entries ▸ List.mem_cons_of_mem _ hentry)).priority] at le
    exact Int.ofNat_le.1 le
  have engine := held.engine_resumed (A := A) (r := r)
  have current : (r.resumed A best.snapshot).engine.current = best.state := by
    rw [engine, held.state]
    rfl
  have visited := held.visited_resumed (A := A) (r := r)
  have distance' : g.Distance (r.resumed A best.snapshot).engine.current best.snapshot.pathLength :=
    current ▸ distance
  refine ⟨distance', ?_, ?_, (List.pairwise_cons.1 (entries ▸ h.ranked)).2, ?_⟩
  · show Knows g (r.resumed A best.snapshot).engine.visited best.snapshot.pathLength
    rw [visited]
    by_cases same : best.snapshot.pathLength = r.depth
    · rw [same]
      exact h.knows
    · -- The level is done, since the best of the queued states is of the next one.
      have next : best.snapshot.pathLength = r.depth + 1 := by omega
      have later : r.depth < best.snapshot.pathLength := by omega
      rw [next]
      apply h.knows_next rested
      rw [entries, List.forall_mem_cons]
      exact ⟨later, fun entry hentry => Nat.lt_of_lt_of_le later (after entry hentry)⟩
  · intro entry hentry
    have waits := h.waits entry (entries ▸ List.mem_cons_of_mem _ hentry)
    refine ⟨waits.priority, waits.distance, after entry hentry, ?_⟩
    exact Nat.le_trans waits.most (Nat.succ_le_succ least)
  · rw [visited, Run.bulletins_resumed]
    refine h.chronicle.expand (b := (r.resumed A best.snapshot).bulletin A.size .stateRestored) ?_
      distance' least
    show (r.resumed A best.snapshot).engine.current ∈ r.engine.visited
    rw [current, held.state]
    exact held.met top List.mem_cons_self

theorem Moves.leveled (moves : Moves g c ps [] A p q) (valid : g.validate = .ok ())
    (small : g.size < 2 ^ 63) (h : Leveled g p) : Leveled g q := by
  cases moves with
  | passed expanding enters _ _ => exact h.passed expanding enters
  | struck _ _ forbidden _ _ => nomatch forbidden
  | stored expanding enters _ _ unseen ranks => exact h.stored expanding enters valid small unseen ranks
  | completed expanding stuck => exact h.completed expanding stuck
  | resumed rested entries => exact h.resumed rested entries

theorem Reached.leveled
    (reached : Reached g c ps [] A ((r.said A .searchStarted).said A .stateStored) p)
    (valid : g.validate = .ok ()) (small : g.size < 2 ^ 63) (start : r.AtStart g c ps bad)
    (unannounced : r.journal.bulletins = []) : Leveled g p :=
  reached.induction (fun _ => .start start unannounced) fun _ _ ih moves => moves.leveled valid small ih

/-- A violation that ends a breadth-first search is found over a shortest way to a bad state. -/
theorem Finished.nearest [Property P] (valid : g.validate = .ok ()) (small : g.size < 2 ^ 63)
    (start : r.AtStart g c ps bad) (unannounced : r.journal.bulletins = [])
    (h : Finished g c ps bad A ((r.said A .searchStarted).said A .stateStored) .propertyViolated p) :
    IsLeast {d | ∃ s, bad s = true ∧ g.Distance s d} p.2.engine.path.length := by
  cases h with
  | @caught b r' q top rest edge ps' w underway reached enters violated engine _ _ =>
    have leveled := reached.leveled valid small start unannounced
    have good : ∀ s ∈ r'.engine.visited, bad s = false := underway.good
    have unseen : edge.target ∉ r'.engine.visited := by
      intro seen
      rw [good _ seen] at violated
      cases violated
    have pathLength : q.engine.path.length = r'.depth + 1 := by
      have entered : (r'.broken ps' w).engine =
          GraphEngine.enter edge { r'.engine with frames := top.next :: rest } :=
        congrArg Prod.snd enters.forward
      have depth : r'.depth + 1 = r'.engine.frames.length := underway.depth
      have length : r'.engine.frames.length = r'.engine.path.length + 1 :=
        underway.wellFormed.frames_length
      rw [engine, entered]
      show r'.engine.path.length + 1 = r'.depth + 1
      omega
    show IsLeast _ q.engine.path.length
    rw [pathLength]
    refine ⟨⟨edge.target, violated, leveled.distance_target enters unseen⟩, ?_⟩
    rintro n ⟨s, violated', distance⟩
    -- A nearer bad state would be known, but the known states are good.
    by_contra nearer
    have known := leveled.knows s n distance (Nat.le_of_lt_succ (Nat.lt_of_not_le nearer))
    rw [good s known] at violated'
    cases violated'

end BestFirst

/-! ## Searches -/

/-- The announcements come to each reachable state first by advancing into it, as far from the initial
    state as it is, and states are expanded in the order of their distances. -/
structure ByDistance (g : StateGraph) (bs : List Bulletin) : Prop where
  first : ∀ s d, g.Distance s d → ∃ b, bs.find? (·.state = s) = some b ∧ b.depth = d ∧
    (s ≠ 0 → b.event = .stateAdvanced)
  ordered : (bs.filter Bulletin.isExpansion).Pairwise (·.depth ≤ ·.depth)
  expanded : ∀ b ∈ bs, b.isExpansion = true → g.Distance b.state b.depth

theorem BestFirst.Finished.byDistance {P : Type} [Property P] {g : StateGraph} {c : Config}
    {ps : List (Watched P)} {A : Audience GraphEngine P} {r : Run GraphEngine P} {reason : StopReason}
    {p : BestFirst BreadthFirst GraphEngine × Run GraphEngine P} (valid : g.validate = .ok ())
    (small : g.size < 2 ^ 63) (start : r.AtStart g c ps fun _ => false)
    (unannounced : r.journal.bulletins = [])
    (h : Finished g c ps (fun _ => false) A ((r.said A .searchStarted).said A .stateStored) reason p) :
    reason = .exhausted ∧ ByDistance g (p.2.concluded A).journal.bulletins := by
  cases h with
  | @exhausted b q underway rested empty reached =>
    have leveled := reached.leveled valid small start unannounced
    obtain ⟨top, rest, frames⟩ := underway.exists_frames
    have current : q.engine.current ∈ q.engine.visited := by
      rw [GraphEngine.current_of_frames frames]
      exact underway.met top (frames ▸ List.mem_cons_self)
    have chronicle : Chronicle g q.engine.visited q.depth (q.concluded A).journal.bulletins := by
      show Chronicle g q.engine.visited q.depth (q.said A .searchFinished).journal.bulletins
      rw [Run.bulletins_said]
      exact leveled.chronicle.mention current rfl
    refine ⟨rfl, ?_, chronicle.ordered, fun b hb expansion => (chronicle.expanded b hb expansion).1⟩
    intro s d distance
    have visited := (rested.exhausted underway empty).ledger.mem_visited_iff.2 distance.reachable
    obtain ⟨b, found, distance', advanced⟩ := chronicle.first s visited
    exact ⟨b, found, distance'.unique distance, advanced⟩
  | caught _ _ _ violated _ _ _ => cases violated

/-- A fresh breadth-first search over a valid graph, with its edges in any order, finds every reachable
    state over a shortest way and expands states in the order of their distances; a search for
    forbidden states that can be reached ends with a shortest way to one of them. -/
theorem breadth_first_search_finds_nearest {L : Type} [Listener GraphEngine ForbiddenStates L]
    {g : StateGraph} {e : GraphEngine} (valid : g.validate = .ok ()) (small : g.size < 2 ^ 63)
    (fresh : GraphEngine.Fresh g e) :
    ∃ s : Search GraphEngine ForbiddenStates L, Search.ofEngine e {} = .ok s ∧
      ∀ b : BestFirst BreadthFirst GraphEngine,
        (∃ o x, Ends BestFirst.run { strategy := b, search := s } o x ∧ o.reason = .exhausted ∧
          ByDistance g x.search.run.journal.bulletins) ∧
        ∀ F : List StateId, 0 ∉ F → (∃ q ∈ F, g.Reachable q) →
          ∃ o x v, Ends BestFirst.run { strategy := b, search := s.addProperty { states := F } } o x ∧
            o.reason = .propertyViolated ∧ x.search.run.violations = [v] ∧
            IsLeast {d | ∃ q ∈ F, g.Distance q d} (x.search.run.summary v).path.length := by
  let s : Search GraphEngine ForbiddenStates L := .fresh e {}
  have hears : (Audience.nobody : Audience GraphEngine ForbiddenStates).Hears {} ([] : List L) :=
    Audience.nobody_hears {}
  have exhaustive := Config.exhaustive_default small
  have total := BreadthFirst.total GraphEngine ForbiddenStates
  refine ⟨s, rfl, fun b => ⟨?_, ?_⟩⟩
  · have start : s.run.AtStart g {} [] (fun _ => false) := .of_fresh fresh rfl rfl rfl
    have mirrors : Mirrors {} [] s s.run :=
      Mirrors.rfl_of_unlimited (s := s) (Memory.unlimited_configure rfl) rfl rfl rfl
    obtain ⟨reason, q, x, ends, finished, -, mirrors'⟩ := BestFirst.ends_graph hears
      Search.guards_nil valid exhaustive small total start mirrors b
    obtain ⟨rfl, byDistance⟩ := finished.byDistance valid small start rfl
    exact ⟨_, x, ends, rfl, mirrors'.bulletins ▸ byDistance⟩
  · intro F outside met
    let watching := s.addProperty { states := F }
    have start : watching.run.AtStart g {} [{ key := 0, property := { states := F } }]
        (fun q => decide (q ∈ F)) :=
      .of_fresh fresh (by simpa using outside) rfl rfl
    have mirrors : Mirrors {} [] watching watching.run :=
      Mirrors.rfl_of_unlimited (s := watching) (Memory.unlimited_configure rfl) rfl rfl rfl
    obtain ⟨reason, q, x, ends, finished, -, mirrors'⟩ := BestFirst.ends_graph hears
      (ForbiddenStates.guards F 0) valid exhaustive small total start mirrors b
    cases finished.stopped exhaustive.single with
    | exhausted exhausted =>
      obtain ⟨t, ht, reachable⟩ := met
      have good := exhausted.good t (exhausted.ledger.mem_visited_iff.2 reachable)
      simp [ht] at good
    | caught caught =>
      obtain ⟨w, violations⟩ := caught.violation
      have nearest := finished.nearest valid small start rfl
      obtain ⟨m, j, eq, -⟩ := mirrors'.run_eq
      simp only [decide_eq_true_eq] at nearest
      refine ⟨_, x, { id := 1, evidence := .live w }, ends, rfl, ?_⟩
      rw [eq]
      exact ⟨violations, nearest⟩

theorem shortcut_found : ∃ e, GraphEngine.ofGraph .shortcut = .ok e ∧
    ∃ s : Search GraphEngine ForbiddenStates Statistics, Search.ofEngine e {} = .ok s ∧
      (∃ o x, Ends BestFirst.run { strategy := { heuristic := (⟨⟩ : BreadthFirst) }, search := s } o x ∧
        ∃ b, x.search.run.journal.bulletins.find? (·.state = 3) = some b ∧ b.depth = 2) ∧
      ∃ o x v, Ends BestFirst.run
          { strategy := { heuristic := (⟨⟩ : BreadthFirst) }
            search := s.addProperty { states := [3] } } o x ∧
        x.search.run.violations = [v] ∧ (x.search.run.summary v).path.length = 2 := by
  have valid : StateGraph.shortcut.validate = .ok () := by decide
  have small : StateGraph.shortcut.size < 2 ^ 63 := by decide
  have distance := StateGraph.distance_shortcut
  obtain ⟨e, made⟩ : ∃ e, GraphEngine.ofGraph .shortcut = .ok e := ⟨_, rfl⟩
  obtain ⟨s, created, runs⟩ := breadth_first_search_finds_nearest (L := Statistics) valid small
    (GraphEngine.fresh_ofGraph made)
  obtain ⟨⟨o, x, ends, -, byDistance⟩, forbidden⟩ := runs { heuristic := ⟨⟩ }
  obtain ⟨b, found, depth, -⟩ := byDistance.first 3 2 distance
  obtain ⟨o', x', v, ends', -, violations, least⟩ :=
    forbidden [3] (by decide) ⟨3, List.mem_singleton_self 3, distance.reachable⟩
  obtain ⟨q, hq, nearest⟩ := least.1
  rw [List.mem_singleton.1 hq] at nearest
  exact ⟨e, made, s, created, ⟨o, x, ends, b, found, depth⟩, o', x', v, ends', violations,
    nearest.unique distance⟩

end Statewalk
