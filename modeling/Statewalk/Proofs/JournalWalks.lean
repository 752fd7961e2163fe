import Mathlib.Algebra.Group.Action.Defs
import Mathlib.Algebra.Order.BigOperators.Group.List
import Mathlib.Algebra.Order.Ring.Nat
import Mathlib.Data.List.Basic
import Statewalk.Journal
import Statewalk.Proofs.ChoiceStack

/-! # Walks that a journal tells of

A journal of repeated walks through a graph is cut into *laps* where the engine returned to a
snapshot.  A lap tells the steps of its walk, where the search announced itself to be on the way,
and the violations that were found.

* `StateGraph.Walk` — the walks of a graph through good states, on the graph alone.
* `Lap` — a stretch of a journal tells of such a walk, with all that was announced of it.
* `Lap.Complete` — the walk came to its end, and within its limit.
* `Logbook` — all laps of a journal but the last are complete, and counted.
-/

namespace Statewalk

/-! ## Walks of a graph -/

/-- One step of a walk: the state that was left and the transition that was taken. -/
structure Stride where
  source : StateId
  transition : Transition
deriving DecidableEq, Repr

namespace StateGraph

/-- The strides lead from the initial state to the given one.  Each leaves the state that the one
    before it entered, which is good and no end state, by a transition of that state. -/
inductive Walk (g : StateGraph) (good : StateId → Bool) : List Stride → StateId → Prop where
  | root : Walk g good [] 0
  | step {strides : List Stride} {s : StateId} {tr : Transition} :
      Walk g good strides s → good s = true → tr ∈ g.outgoing s →
      Walk g good (strides ++ [⟨s, tr⟩]) tr.state

/-- A walk may end here: in an end state, at the limit, or where the state is not good. -/
def Halts (g : StateGraph) (good : StateId → Bool) (limit length : Nat) (s : StateId) : Prop :=
  g.isEnd s = true ∨ length = limit ∨ good s = false

namespace Walk

variable {g : StateGraph} {good : StateId → Bool} {as bs : List Stride} {s t : StateId} {limit : Nat}

/-- Where a walk leads to is told by its last stride. -/
theorem eq_last (h : g.Walk good as s) :
    s = (as.getLast?.map fun b => b.transition.state).getD 0 := by
  cases h with
  | root => rfl
  | step => simp

/-- A walk that goes on after its first strides left the state that these lead to. -/
theorem of_append {b : Stride} (h : g.Walk good (as ++ b :: bs) s) :
    g.Walk good as b.source ∧ good b.source = true ∧ b.transition ∈ g.outgoing b.source := by
  generalize whole : as ++ b :: bs = strides at h
  -- On the walk: its last stride is `b`, or the last of those after `b`.
  induction h generalizing bs with
  | root => simp at whole
  | step before fine out ih =>
    rcases List.eq_nil_or_concat bs with rfl | ⟨bs, c, rfl⟩
    · obtain ⟨rfl, same⟩ := List.append_inj' whole rfl
      cases same
      exact ⟨before, fine, out⟩
    · rw [List.concat_eq_append, ← List.cons_append, ← List.append_assoc] at whole
      exact ih (List.append_inj' whole rfl).1

/-- A walk that may end goes no further than any walk within the limit that begins with it. -/
theorem eq_of_isPrefix (h : g.Walk good as s) (h' : g.Walk good bs t)
    (halts : g.Halts good limit as.length s) (within : bs.length ≤ limit) (pre : as <+: bs) :
    as = bs := by
  obtain ⟨rest, rfl⟩ := pre
  cases rest with
  | nil => simp
  | cons b rest =>
    obtain ⟨before, fine, out⟩ := h'.of_append
    have here : s = b.source := h.eq_last.trans before.eq_last.symm
    have notEnd := (mem_outgoing.1 out).1
    rw [List.length_append, List.length_cons] at within
    rcases halts with isEnd | full | bad
    · simp [here, notEnd] at isEnd
    · omega
    · simp [here, fine] at bad

end Walk

/-! ### Walks without a choice -/

/-- The stride that comes after others if the initial state takes the first of the given choices,
    and every other state the first of its edges. -/
def nextStride (g : StateGraph) (choices : List Nat) (strides : List Stride) : Option Stride :=
  let s := (strides.getLast?.map fun b => b.transition.state).getD 0
  let order := if strides = [] then choices else GraphEngine.declared g s
  order[0]?.bind fun i => (g.edges s)[i]?.map fun e => ⟨s, e.transition⟩

/-- The first strides of the walk that always takes the first choice. -/
def firstStrides (g : StateGraph) (choices : List Nat) : Nat → List Stride
  | 0 => []
  | n + 1 => g.firstStrides choices n ++ (g.nextStride choices (g.firstStrides choices n)).toList

theorem firstStrides_isPrefix (g : StateGraph) (choices : List Nat) {n m : Nat} (le : n ≤ m) :
    g.firstStrides choices n <+: g.firstStrides choices m := by
  induction m, le using Nat.le_induction with
  | base => exact List.prefix_rfl
  | succ m _ ih => exact ih.trans (List.prefix_append _ _)

theorem Walk.firstStrides_concat {g : StateGraph} {good : StateId → Bool} {as : List Stride}
    {s : StateId} {choices : List Nat} (h : g.Walk good as s)
    (first : as = g.firstStrides choices as.length) {i : Nat} {e : Edge}
    (choice : (if as = [] then choices else GraphEngine.declared g s)[0]? = some i)
    (hedge : (g.edges s)[i]? = some e) :
    as ++ [⟨s, e.transition⟩] = g.firstStrides choices (as.length + 1) := by
  have next : g.nextStride choices as = some ⟨s, e.transition⟩ := by
    simp only [nextStride, ← h.eq_last, choice, Option.bind_some, hedge, Option.map_some]
  rw [firstStrides, ← first, next, Option.toList_some]

/-- Two walks that take the same choices and may end are the same. -/
theorem Walk.eq_of_firstStrides {g : StateGraph} {good : StateId → Bool} {as bs : List Stride}
    {s t : StateId} {limit : Nat} {choices : List Nat} (h : g.Walk good as s) (h' : g.Walk good bs t)
    (first : as = g.firstStrides choices as.length) (first' : bs = g.firstStrides choices bs.length)
    (halts : g.Halts good limit as.length s) (halts' : g.Halts good limit bs.length t)
    (within : as.length ≤ limit) (within' : bs.length ≤ limit) : as = bs := by
  -- The shorter of the two is a prefix of the other, and may end.
  rcases Nat.le_total as.length bs.length with le | le
  · apply h.eq_of_isPrefix h' halts within'
    rw [first, first']
    exact g.firstStrides_isPrefix choices le
  · apply (h'.eq_of_isPrefix h halts' within _).symm
    rw [first, first']
    exact g.firstStrides_isPrefix choices le

end StateGraph

/-! ## What entries tell -/

/-- The event says where a walk begins or where it goes. -/
def Event.isStation : Event → Bool
  | .searchStarted | .stateRestored | .stateAdvanced => true
  | _ => false

namespace Entry

/-- The step that an entry tells of. -/
def stride? : Entry → Option Stride
  | .crossed source transition _ => some ⟨source, transition⟩
  | _ => none

/-- The engine was asked to step forward. -/
def isForward : Entry → Bool
  | .moved .forward _ _ => true
  | _ => false

/-- The engine was asked to return to a snapshot. -/
def isReturn : Entry → Bool
  | .moved .restore _ _ => true
  | _ => false

def isViolation : Entry → Bool
  | .violated .. => true
  | _ => false

/-- The search announced that it returned to a snapshot. -/
def isRestored (e : Entry) : Bool :=
  e.event? = some .stateRestored

/-- The number of walks and the depth that are told at the end of a walk. -/
def walked? : Entry → Option (Nat × Nat)
  | .walked walks depth => some (walks, depth)
  | _ => none

/-- Event, depth and state of the announcements that say where a walk begins and where it goes. -/
def station? : Entry → Option (Event × Nat × StateId)
  | .announced b => if b.event.isStation then some (b.event, b.depth, b.state) else none
  | _ => none

/-- The entry is not about where a walk goes, and not about violations. -/
def isIncidental (e : Entry) : Bool :=
  e.stride?.isNone && e.station?.isNone && !e.isViolation && !e.isReturn && !e.isRestored

end Entry

/-- The steps that entries tell of, in order. -/
def strides (es : List Entry) : List Stride :=
  es.filterMap Entry.stride?

@[simp] theorem strides_append (es fs : List Entry) : strides (es ++ fs) = strides es ++ strides fs :=
  List.filterMap_append

/-- The stretches of a journal between the returns to a snapshot. -/
def laps (es : List Entry) : List (List Entry) :=
  es.splitOnP Entry.isReturn

section Laps

variable {es fs cur : List Entry} {done : List (List Entry)} {e : Entry}

theorem laps_cons (e : Entry) (es : List Entry) : laps (e :: es) =
    if e.isReturn then [] :: laps es else (laps es).modifyHead (e :: ·) :=
  List.splitOnP_cons_eq_if_modifyHead e es

/-- What is not a return belongs to the last lap. -/
theorem laps_append (h : laps es = done ++ [cur]) (within : ∀ e ∈ fs, e.isReturn = false) :
    laps (es ++ fs) = done ++ [cur ++ fs] := by
  induction es generalizing done cur with
  | nil =>
    have single : done ++ [cur] = [] ++ [[]] := h.symm
    obtain ⟨rfl, last⟩ := List.append_inj' single rfl
    cases last
    exact List.splitOnP_eq_singleton within
  | cons e es ih =>
    rw [List.cons_append, laps_cons]
    rw [laps_cons] at h
    obtain ⟨lap, rest, first⟩ := List.exists_cons_of_ne_nil (List.splitOnP_ne_nil Entry.isReturn es)
    change laps es = lap :: rest at first
    -- Either the first lap is the last one too, or the last one is among the rest.
    split at h
    · rw [first] at h
      cases done with
      | nil => simp at h
      | cons d done =>
        obtain ⟨rfl, others⟩ := List.cons.inj h
        rw [if_pos ‹_›, ih (first.trans others), List.cons_append]
    · rw [first, List.modifyHead_cons] at h
      rw [if_neg ‹_›]
      cases done with
      | nil =>
        obtain ⟨rfl, rfl⟩ := List.cons.inj h
        have single : laps es = [] ++ [lap] := first
        rw [ih single]
        rfl
      | cons d done =>
        obtain ⟨rfl, rfl⟩ := List.cons.inj h
        have several : laps es = (lap :: done) ++ [cur] := first
        rw [ih several]
        rfl

/-- A return ends the last lap and begins the next one. -/
theorem laps_concat_return (es : List Entry) (turns : e.isReturn = true) :
    laps (es ++ [e]) = laps es ++ [[]] :=
  List.splitOnP_append_cons es [] turns

/-- What returns do not tell is told by the laps. -/
theorem sum_countP_laps {p : Entry → Bool} (other : ∀ e : Entry, e.isReturn = true → p e = false)
    (es : List Entry) : ((laps es).map (List.countP p)).sum = es.countP p := by
  induction es with
  | nil => rfl
  | cons e es ih =>
    rw [laps_cons, List.countP_cons, ← ih]
    split
    · simp [other e ‹_›]
    · obtain ⟨lap, rest, first⟩ := List.exists_cons_of_ne_nil (List.splitOnP_ne_nil Entry.isReturn es)
      change laps es = lap :: rest at first
      simp only [first, List.modifyHead_cons, List.map_cons, List.countP_cons, List.sum_cons]
      omega

/-- As many laps as there are, none of which tells more than `n` times, tell at most that often. -/
theorem countP_le_laps {p : Entry → Bool} {n : Nat} (other : ∀ e : Entry, e.isReturn = true → p e = false)
    (few : ∀ lap ∈ laps es, lap.countP p ≤ n) : es.countP p ≤ (laps es).length * n := by
  have sum := List.sum_le_card_nsmul ((laps es).map (List.countP p)) n (by simpa using few)
  rwa [sum_countP_laps other, List.length_map, smul_eq_mul] at sum

end Laps

/-! ## Laps -/

/-- What is announced of a walk: its beginning, and each of its steps. -/
def itinerary (i : Nat) (strides : List Stride) : List (Event × Nat × StateId) :=
  (if i = 0 then .searchStarted else .stateRestored, 0, 0) ::
    strides.mapIdx fun n b => (.stateAdvanced, n + 1, b.transition.state)

theorem itinerary_concat (i : Nat) (strides : List Stride) (b : Stride) : itinerary i (strides ++ [b]) =
    itinerary i strides ++ [(.stateAdvanced, strides.length + 1, b.transition.state)] := by
  simp [itinerary, List.mapIdx_append]

/-- The entries tell of a walk to the state, which is announced step by step.  A violation is told
    exactly if the state is not good. -/
structure Lap (g : StateGraph) (good : StateId → Bool) (i : Nat) (es : List Entry) (s : StateId) : Prop
    where
  walk : g.Walk good (strides es) s
  stations : es.filterMap Entry.station? = itinerary i (strides es)
  violations : es.countP Entry.isViolation = if good s then 0 else 1

/-- The entries tell of a walk that came to its end within the limit, as do the attempts to go on. -/
structure Lap.Complete (g : StateGraph) (good : StateId → Bool) (limit i : Nat) (es : List Entry) : Prop
    where
  lap : ∃ s, Lap g good i es s ∧ g.Halts good limit (strides es).length s
  within : (strides es).length ≤ limit
  tries : es.countP Entry.isForward ≤ limit

/-- The walk was counted as it should be, once. -/
def Lap.Counted (i : Nat) (es : List Entry) : Prop :=
  es.filterMap Entry.walked? = [(i + 1, (strides es).length)]

theorem Entry.isIncidental_announced {b : Bulletin} (other : b.event.isStation = false) :
    (announced b).isIncidental = true := by
  have silent : b.event ≠ .stateRestored := by
    intro restored
    simp [restored, Event.isStation] at other
  simp [isIncidental, stride?, station?, isViolation, isReturn, isRestored, event?, other, silent]

theorem Entry.isIncidental_iff {e : Entry} : e.isIncidental = true ↔
    e.stride? = none ∧ e.station? = none ∧ e.isViolation = false ∧ e.isReturn = false ∧
      e.isRestored = false := by
  simp [isIncidental, and_assoc]

section Incidentals

variable {es fs : List Entry} (incidental : ∀ e ∈ fs, e.isIncidental = true)

include incidental

theorem strides_append_incidental : strides (es ++ fs) = strides es := by
  have none : strides fs = [] :=
    List.filterMap_eq_nil_iff.2 fun e he => (Entry.isIncidental_iff.1 (incidental e he)).1
  rw [strides_append, none, List.append_nil]

theorem stations_append_incidental :
    (es ++ fs).filterMap Entry.station? = es.filterMap Entry.station? := by
  have none : fs.filterMap Entry.station? = [] :=
    List.filterMap_eq_nil_iff.2 fun e he => (Entry.isIncidental_iff.1 (incidental e he)).2.1
  rw [List.filterMap_append, none, List.append_nil]

theorem violations_append_incidental :
    (es ++ fs).countP Entry.isViolation = es.countP Entry.isViolation := by
  have none : fs.countP Entry.isViolation = 0 :=
    List.countP_eq_zero.2 fun e he => by simp [(Entry.isIncidental_iff.1 (incidental e he)).2.2.1]
  rw [List.countP_append, none, Nat.add_zero]

theorem restored_append_incidental :
    (es ++ fs).countP Entry.isRestored = es.countP Entry.isRestored := by
  have none : fs.countP Entry.isRestored = 0 :=
    List.countP_eq_zero.2 fun e he => by simp [(Entry.isIncidental_iff.1 (incidental e he)).2.2.2.2]
  rw [List.countP_append, none, Nat.add_zero]

end Incidentals

/-- The entries tell of one step to a depth, its announcement, and the violation found in the state
    that was entered if that is not good. -/
structure Leg (good : StateId → Bool) (fs : List Entry) (s : StateId) (tr : Transition) (depth : Nat) : Prop
    where
  strides : strides fs = [⟨s, tr⟩]
  stations : fs.filterMap Entry.station? = [(.stateAdvanced, depth, tr.state)]
  violations : fs.countP Entry.isViolation = if good tr.state then 0 else 1
  tries : fs.countP Entry.isForward = 1
  uncounted : fs.filterMap Entry.walked? = []
  within : ∀ e ∈ fs, e.isReturn = false
  silent : fs.countP Entry.isRestored = 0

theorem leg_of_step {good : StateId → Bool} {s : StateId} {tr : Transition} {isNew : Bool}
    {depth below : Nat} {found : List Entry} {b : Bulletin}
    (verdict : good tr.state = true ∧ found = [] ∨
      good tr.state = false ∧ ∃ id name d, found = [.violated id name d])
    (event : b.event = .stateAdvanced) (at_depth : b.depth = depth) (at_state : b.state = tr.state) :
    Leg good (.moved .forward below true :: .crossed s tr isNew :: (found ++ [.announced b])) s tr depth := by
  -- Everything is read off the entries once the bulletin is known.
  obtain ⟨_, _, _, _⟩ := b
  obtain rfl : _ = Event.stateAdvanced := event
  obtain rfl : _ = depth := at_depth
  obtain rfl : _ = tr.state := at_state
  rcases verdict with ⟨fine, rfl⟩ | ⟨bad, id, name, d, rfl⟩
  · exact ⟨rfl, rfl, by rw [if_pos fine]; rfl, rfl, rfl, by simp [Entry.isReturn], rfl⟩
  · exact ⟨rfl, rfl, by simp only [bad]; rfl, rfl, rfl, by simp [Entry.isReturn], rfl⟩

/-- The entries tell that a walk begins, and no more of it. -/
structure Lap.Begins (i : Nat) (es : List Entry) : Prop where
  strides : strides es = []
  stations : es.filterMap Entry.station? = itinerary i []
  violations : es.countP Entry.isViolation = 0
  tries : es.countP Entry.isForward = 0
  uncounted : es.filterMap Entry.walked? = []

namespace Lap

variable {g : StateGraph} {good : StateId → Bool} {i limit : Nat} {es fs : List Entry} {s : StateId}

theorem Begins.lap (h : Begins i es) (root : good 0 = true) : Lap g good i es 0 where
  walk := h.strides ▸ .root
  stations := h.strides ▸ h.stations
  violations := h.violations.trans (if_pos root).symm

theorem incidental (h : Lap g good i es s) (incidental : ∀ e ∈ fs, e.isIncidental = true) :
    Lap g good i (es ++ fs) s where
  walk := by
    rw [strides_append_incidental incidental]
    exact h.walk
  stations := by
    rw [strides_append_incidental incidental, stations_append_incidental incidental]
    exact h.stations
  violations := by
    rw [violations_append_incidental incidental]
    exact h.violations

theorem step (h : Lap g good i es s) (fine : good s = true) {tr : Transition} (out : tr ∈ g.outgoing s)
    (leg : Leg good fs s tr ((strides es).length + 1)) : Lap g good i (es ++ fs) tr.state where
  walk := by
    rw [strides_append, leg.strides]
    exact .step h.walk fine out
  stations := by
    rw [strides_append, leg.strides, itinerary_concat, List.filterMap_append, h.stations, leg.stations]
  violations := by
    rw [List.countP_append, h.violations, leg.violations, if_pos fine, Nat.zero_add]

theorem Complete.incidental (h : Complete g good limit i es) (incidental : ∀ e ∈ fs, e.isIncidental = true)
    (still : fs.countP Entry.isForward = 0) : Complete g good limit i (es ++ fs) where
  lap := by
    obtain ⟨s, lap, halts⟩ := h.lap
    rw [strides_append_incidental incidental]
    exact ⟨s, lap.incidental incidental, halts⟩
  within := by
    rw [strides_append_incidental incidental]
    exact h.within
  tries := by
    rw [List.countP_append, still]
    exact h.tries

theorem Counted.incidental (h : Counted i es) (incidental : ∀ e ∈ fs, e.isIncidental = true)
    (uncounted : fs.filterMap Entry.walked? = []) : Counted i (es ++ fs) := by
  rw [Counted, strides_append_incidental incidental, List.filterMap_append, uncounted, List.append_nil]
  exact h

end Lap

/-! ## Logbooks -/

/-- The journal tells of walks that came to their ends and were counted, one return after each, and
    of another one that is under way. -/
structure Logbook (g : StateGraph) (good : StateId → Bool) (limit : Nat) (es : List Entry)
    (done : List (List Entry)) (cur : List Entry) : Prop where
  laps : laps es = done ++ [cur]
  complete : ∀ i lap, done[i]? = some lap → Lap.Complete g good limit i lap ∧ Lap.Counted i lap
  restored : es.countP Entry.isRestored = done.length

namespace Logbook

variable {g : StateGraph} {good : StateId → Bool} {limit : Nat} {es fs cur : List Entry}
  {done : List (List Entry)}

/-- More of the walk under way. -/
theorem append (h : Logbook g good limit es done cur) (within : ∀ e ∈ fs, e.isReturn = false)
    (silent : fs.countP Entry.isRestored = 0) : Logbook g good limit (es ++ fs) done (cur ++ fs) where
  laps := laps_append h.laps within
  complete := h.complete
  restored := by rw [List.countP_append, silent, h.restored, Nat.add_zero]

theorem incidental (h : Logbook g good limit es done cur) (incidental : ∀ e ∈ fs, e.isIncidental = true) :
    Logbook g good limit (es ++ fs) done (cur ++ fs) where
  laps := laps_append h.laps fun e he => (Entry.isIncidental_iff.1 (incidental e he)).2.2.2.1
  complete := h.complete
  restored := (restored_append_incidental incidental).trans h.restored

/-- What holds of the walks that came to their ends and of the one under way holds of all laps. -/
theorem forall_laps {p : Nat → List Entry → Prop} (h : ∀ i lap, done[i]? = some lap → p i lap)
    (last : p done.length cur) : ∀ i lap, (done ++ [cur])[i]? = some lap → p i lap := by
  intro i lap found
  rw [List.getElem?_append] at found
  split at found
  · exact h i lap found
  · obtain ⟨here, rfl⟩ := List.getElem?_eq_some_iff.1 found
    obtain rfl : i = done.length := by
      simp only [List.length_singleton] at here
      omega
    simpa using last

/-- The walk under way came to its end, and the next one begins with an announcement. -/
theorem turn (h : Logbook g good limit es done cur) (closed : Lap.Complete g good limit done.length cur)
    (counted : Lap.Counted done.length cur) {e f : Entry} (turns : e.isReturn = true)
    (silent : e.isRestored = false) (tells : f.isRestored = true) (stays : f.isReturn = false) :
    Logbook g good limit (es ++ [e] ++ [f]) (done ++ [cur]) [f] where
  laps := by
    have turned : Statewalk.laps (es ++ [e]) = (done ++ [cur]) ++ [[]] := by
      rw [laps_concat_return es turns, h.laps]
    exact laps_append turned (by simpa using stays)
  complete := forall_laps h.complete ⟨closed, counted⟩
  restored := by simp [List.countP_append, h.restored, silent, tells]

end Logbook

end Statewalk
