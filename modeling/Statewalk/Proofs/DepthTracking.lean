import Mathlib.Algebra.Ring.Int.Defs
import Statewalk.Proofs.GraphRuns
import Statewalk.Proofs.Restraint
import Statewalk.Strategy.BestFirst

/-! # Depth and path

A strategy counts its depth by itself, and the engine keeps its own path.  Whatever the strategy, the
two agree whenever anybody is told of an event.  In between they differ by one, while a step was made
and not yet counted: `Run.Aligned` carries this difference, and how far the announcements are behind
the depth.
-/

namespace Statewalk

variable {E P L : Type} [Engine E]

/-- Sound engines change the lengths of their paths with each move as a stack would, and genuine
    snapshots carry the lengths that they lead back to. -/
structure Engine.Paced (sound : E → Prop) (genuine : Snapshot (Engine.Saved E) → Prop) : Prop where
  forward : ∀ e, sound e → sound (Engine.forward e).2 ∧ Engine.pathLength (Engine.forward e).2 =
    if (Engine.forward e).1 then Engine.pathLength e + 1 else Engine.pathLength e
  backtrack : ∀ e, sound e → sound (Engine.backtrack e).2 ∧ Engine.pathLength e =
    if (Engine.backtrack e).1 then Engine.pathLength (Engine.backtrack e).2 + 1
    else Engine.pathLength (Engine.backtrack e).2
  ignore : ∀ mark e, sound e → sound (Engine.ignore mark e) ∧
    Engine.pathLength (Engine.ignore mark e) = Engine.pathLength e
  resetChoice : ∀ e, sound e → sound (Engine.resetChoice e) ∧
    Engine.pathLength (Engine.resetChoice e) = Engine.pathLength e
  snapshot : ∀ e s, sound e → Engine.snapshot? e = some s →
    genuine s ∧ s.pathLength = Engine.pathLength e
  restore : ∀ s e, genuine s → sound e → sound (Engine.restore s e).2 ∧
    Engine.pathLength (Engine.restore s e).2 =
      if (Engine.restore s e).1 then s.pathLength else Engine.pathLength e

theorem Engine.Paced.ignored {sound : E → Prop} {genuine : Snapshot (Engine.Saved E) → Prop}
    (paced : Engine.Paced sound genuine) {e e' : E} (h : sound e)
    (marks : Engine.Marked e e') :
    sound e' ∧ Engine.pathLength e' = Engine.pathLength e := by
  induction marks with
  | refl => exact ⟨h, rfl⟩
  | tail _ last ih =>
    obtain ⟨mark, rfl⟩ := last
    have marked := paced.ignore mark _ ih.1
    exact ⟨marked.1, marked.2.trans ih.2⟩

/-! ## Graph engines -/

namespace GraphEngine

variable {g : StateGraph}

/-- A snapshot that some engine over the graph made. -/
def Genuine (g : StateGraph) (s : Snapshot Saved) : Prop :=
  ∃ e, WellFormed g e ∧ s = e.snapshot

theorem paced (g : StateGraph) : Engine.Paced (WellFormed g) (Genuine g) where
  forward e h := by
    obtain ⟨top, rest, frames⟩ := h.exists_frames
    cases h.forward_cases frames with
    | inl enters =>
      obtain ⟨edge, enters⟩ := enters
      rw [enters.forward]
      exact ⟨enters.wellFormed, rfl⟩
    | inr spent =>
      rw [spent.2]
      exact ⟨h.stall, rfl⟩
  backtrack e h := by
    obtain ⟨top, rest, frames⟩ := h.exists_frames
    show WellFormed g e.backtrack.2 ∧ e.path.length =
      if e.backtrack.1 then e.backtrack.2.path.length + 1 else e.backtrack.2.path.length
    cases rest with
    | nil =>
      rw [backtrack_root frames]
      exact ⟨h, rfl⟩
    | cons below rest =>
      have length := h.frames_length
      rw [backtrack_of_frames frames]
      refine ⟨h.backtrack frames, ?_⟩
      simp only [frames, List.length_cons, Path.length] at length
      simp only [if_true, syncThreads, stall, Path.length, Path.pop, List.length_tail]
      omega
  ignore mark e h := ⟨⟨h.graph, h.stacked, h.application, h.threads⟩, rfl⟩
  resetChoice e h := by
    obtain ⟨top, rest, frames⟩ := h.exists_frames
    have stacked := h.stacked
    rw [frames] at stacked
    have arranged := arrange_perm top.choices e.random
    have again : WellFormed g { e with
        frames := { top with choices := (arrange top.choices e.random).1, tried := 0 } :: rest
        random := (arrange top.choices e.random).2 } := by
      refine ⟨h.graph, stacked.replace_top rfl ⟨arranged.trans stacked.proper.perm, Nat.zero_le _⟩,
        h.application, ?_⟩
      rw [h.threads, current_of_frames frames]
      rfl
    show WellFormed g e.resetChoice ∧ e.resetChoice.path.length = e.path.length
    simp only [GraphEngine.resetChoice, frames]
    exact ⟨again, trivial⟩
  snapshot e s h made := by
    have length := h.frames_length
    cases made
    refine ⟨⟨e, h, rfl⟩, ?_⟩
    show e.frames.length - 1 = e.path.length
    omega
  restore s e genuine h := by
    obtain ⟨e', h', rfl⟩ := genuine
    have length := h'.frames_length
    refine ⟨⟨h.graph, h'.stacked, h'.application, ?_⟩, ?_⟩
    · rw [← h.graph]
      rfl
    · show e'.path.length = e'.frames.length - 1
      omega

end GraphEngine

/-! ## Runs -/

/-- How an announced event is counted for the depth. -/
def Event.rise : Event → Int
  | .stateAdvanced => 1
  | .stateBacktracked => -1
  | _ => 0

theorem sum_rise (events : List Event) : (events.map Event.rise).sum =
    (events.count .stateAdvanced : Int) - events.count .stateBacktracked := by
  induction events with
  | nil => rfl
  | cons event events ih =>
    cases event <;> simp [Event.rise, ih] <;> omega

namespace Run

variable {sound : E → Prop} {genuine : Snapshot (Engine.Saved E) → Prop} {counted : Prop}
  {j : Journal} {lead due : Int} {r r' : Run E P}

/-- The depth is the length of the engine's path. -/
structure AtPath (sound : E → Prop) (r : Run E P) : Prop where
  sound : sound r.engine
  depth : r.depth = Engine.pathLength r.engine

/-- All announcements since the journal was `j` were made at the depth of the engine's path. -/
def InStep (j : Journal) (news : List Bulletin) (r : Run E P) : Prop :=
  r.journal.bulletins = j.bulletins ++ news ∧ ∀ b ∈ news, b.depth = b.pathLength

/-- The engine is `lead` steps ahead of the depth, and the announcements since the journal was `j`
    are behind by `due`, if they are counted. -/
structure Aligned (sound : E → Prop) (counted : Prop) (j : Journal) (lead due : Int)
    (r : Run E P) : Prop where
  sound : sound r.engine
  path : (Engine.pathLength r.engine : Int) = r.depth + lead
  news : ∃ news, r.InStep j news ∧
    (counted → ((news.map (·.event)).map Event.rise).sum = (r.depth : Int) + due)

namespace Aligned

/-- Only the engine, the depth and the announcements count. -/
theorem congr (h : Aligned sound counted j lead due r) (engine : r'.engine = r.engine)
    (depth : r'.depth = r.depth) (bulletins : r'.journal.bulletins = r.journal.bulletins) :
    Aligned sound counted j lead due r' := by
  obtain ⟨news, ⟨told, inStep⟩, sum⟩ := h.news
  refine ⟨engine ▸ h.sound, by rw [engine, depth]; exact h.path, news, ⟨bulletins.trans told, inStep⟩, ?_⟩
  rwa [depth]

theorem attended (paced : Engine.Paced sound genuine) (h : Aligned sound counted j lead due r)
    (attended : r.Attended r') : Aligned sound counted j lead due r' := by
  have ignored := paced.ignored h.sound attended.engine
  obtain ⟨news, ⟨told, inStep⟩, sum⟩ := h.news
  refine ⟨ignored.1, by rw [ignored.2, attended.depth]; exact h.path, news,
    ⟨attended.bulletins.trans told, inStep⟩, ?_⟩
  rwa [attended.depth]

theorem atPath (h : Aligned sound counted j 0 due r) : r.AtPath sound :=
  ⟨h.sound, by have := h.path; omega⟩

theorem announced (h : Aligned sound counted j 0 due r) (n : Nat) (event : Event) :
    Aligned sound counted j 0 (due + event.rise) (r.record (.announced (r.bulletin n event))) := by
  obtain ⟨news, ⟨told, inStep⟩, sum⟩ := h.news
  refine ⟨h.sound, h.path, news ++ [r.bulletin n event], ⟨?_, ?_⟩, ?_⟩
  · simp [record, told, Entry.bulletin?]
  · intro b member
    cases List.mem_append.1 member with
    | inl member => exact inStep b member
    | inr member =>
      cases List.mem_singleton.1 member
      exact h.atPath.depth
  · intro count
    have before := sum count
    have entered : (r.bulletin n event).event = event := rfl
    simp only [List.map_append, List.map_cons, List.map_nil, List.sum_append, List.sum_cons,
      List.sum_nil, before, entered]
    simp only [record]
    omega

/-- The step of the engine is counted before it is announced. -/
theorem stepForward (paced : Engine.Paced sound genuine) (h : Aligned sound counted j 0 0 r) :
    Aligned sound counted j (if r.stepForward.1 then 1 else 0) 0 r.stepForward.2 := by
  obtain ⟨kept, length⟩ := paced.forward r.engine h.sound
  have path := h.path
  rw [stepForward_eq]
  obtain ⟨news, ⟨told, inStep⟩, sum⟩ := h.news
  refine ⟨kept, ?_, news, ⟨?_, inStep⟩, sum⟩
  · simp only [length]
    split_ifs <;> simp <;> omega
  · exact (bulletins_stepJournal r r.journal).trans told

theorem stepBack (paced : Engine.Paced sound genuine) (h : Aligned sound counted j 0 0 r) :
    Aligned sound counted j (if r.stepBack.1 then -1 else 0) 0 r.stepBack.2 := by
  obtain ⟨kept, length⟩ := paced.backtrack r.engine h.sound
  have path := h.path
  obtain ⟨news, ⟨told, inStep⟩, sum⟩ := h.news
  refine ⟨kept, ?_, news, ⟨?_, inStep⟩, sum⟩
  · simp only [Run.stepBack, record]
    split at length
    · simp_all
      omega
    · simp_all
  · simp [Run.stepBack, record, told, Entry.bulletin?]

theorem checkProperties [Checkable E P] (h : Aligned sound counted j lead due r) :
    Aligned sound counted j lead due r.checkProperties.2 := by
  unfold Run.checkProperties
  simp only
  split
  · exact h.congr rfl rfl (by simp [violate, record, Entry.bulletin?])
  · exact h.congr rfl rfl rfl

end Aligned

/-- The engine went back to the snapshot if that was accepted, and the depth was not yet set. -/
structure Returned (sound : E → Prop) (j : Journal) (snapshot : Snapshot (Engine.Saved E))
    (accepted : Bool) (r : Run E P) : Prop where
  sound : sound r.engine
  path : accepted = true → Engine.pathLength r.engine = snapshot.pathLength
  news : ∃ news, r.InStep j news

theorem Aligned.stepTo (paced : Engine.Paced sound genuine) (h : Aligned sound counted j 0 0 r)
    {snapshot : Snapshot (Engine.Saved E)} (made : genuine snapshot) :
    Returned sound j snapshot (r.stepTo snapshot).1 (r.stepTo snapshot).2 := by
  obtain ⟨kept, length⟩ := paced.restore snapshot r.engine made h.sound
  obtain ⟨news, ⟨told, inStep⟩, -⟩ := h.news
  refine ⟨kept, ?_, news, ?_, inStep⟩
  · intro accepted
    exact length.trans (if_pos accepted)
  · simp [Run.stepTo, record, told, Entry.bulletin?]

theorem Returned.level {snapshot : Snapshot (Engine.Saved E)} (h : Returned sound j snapshot true r) :
    Aligned sound False j 0 0 { r with depth := snapshot.pathLength } := by
  have path := h.path rfl
  obtain ⟨news, inStep⟩ := h.news
  refine ⟨h.sound, ?_, news, inStep, False.elim⟩
  simp only [path]
  omega

/-- The run failed, not for going above its root, and all its announcements were in step. -/
def FailsInStep (j : Journal) (f : Failure) (r : Run E P) : Prop :=
  f ≠ .fault .aboveRoot ∧ ∃ news, r.InStep j news

theorem Aligned.failsInStep (h : Aligned sound counted j lead due r) {f : Failure}
    (fault : f ≠ .fault .aboveRoot) : r.FailsInStep j f := by
  obtain ⟨news, inStep, -⟩ := h.news
  exact ⟨fault, news, inStep⟩

theorem ensures_descend : Ensures (Aligned (P := P) sound counted j 1 0) descend
    (fun _ => Aligned sound counted j 0 (-1)) (FailsInStep j) := by
  intro r h
  have path := h.path
  obtain ⟨news, inStep, sum⟩ := h.news
  simp only [descend, EStateM.get_bind_apply]
  unfold addWords
  split_ifs
  · refine ⟨h.sound, ?_, news, inStep, ?_⟩
    · simp only
      omega
    · intro count
      have := sum count
      simp only
      omega
  · exact h.failsInStep (by simp)

/-- The engine was above the root before it stepped back, so the depth can be lowered. -/
theorem ensures_ascend : Ensures (Aligned (P := P) sound counted j (-1) 0) ascend
    (fun _ => Aligned sound counted j 0 1) (FailsInStep j) := by
  intro r h
  have path := h.path
  have below : r.depth ≠ 0 := by omega
  obtain ⟨news, inStep, sum⟩ := h.news
  simp only [ascend, EStateM.get_bind_apply, below, if_false]
  refine ⟨h.sound, ?_, news, inStep, ?_⟩
  · simp only
    omega
  · intro count
    have := sum count
    simp only
    omega

end Run

/-! ## Operations of a search -/

namespace Search

variable {sound : E → Prop} {genuine : Snapshot (Engine.Saved E) → Prop} {allowed : L → Prop}
  {counted : Prop} {j : Journal} {lead due : Int} {α : Type}

/-- The operation is entered and left with the depth at the engine's path. -/
def StaysLevel (sound : E → Prop) (allowed : L → Prop) (counted : Prop) (j : Journal)
    (x : SearchM E P L α) : Prop :=
  Ensures (Heeded allowed (Run.Aligned sound counted j 0 0)) x
    (fun _ => Heeded allowed (Run.Aligned sound counted j 0 0))
    fun f => Heeded allowed (Run.FailsInStep j f)

section Engine

variable (paced : Engine.Paced sound genuine)

include paced

omit paced in
theorem staysLevel_isNew : StaysLevel (P := P) sound allowed counted j (isNew (L := L)) := by
  refine ensures_onRun (K := fun _ => Run.Aligned sound counted j 0 0) fun r h => ?_
  obtain ⟨answer, depths, query, asked, -⟩ | ⟨f, failed, fault⟩ := Run.isNew_cases r
  · rw [asked]
    exact h.congr rfl rfl rfl
  · rw [failed]
    exact h.failsInStep fault

theorem ensures_forward [Checkable E P] :
    Ensures (Heeded allowed (Run.Aligned sound counted j 0 0)) (forward (E := E) (P := P) (L := L))
      (fun moved => Heeded allowed (Run.Aligned sound counted j (if moved then 1 else 0) 0))
      fun f => Heeded allowed (Run.FailsInStep j f) := by
  apply Ensures.bind
  · exact ensures_change (K := Run.Aligned sound counted j 0 0) fun r h => h.congr rfl rfl rfl
  intro _
  apply Ensures.bind
  · exact ensures_update (K := fun moved => Run.Aligned sound counted j (if moved then 1 else 0) 0)
      fun r h => h.stepForward paced
  intro moved
  apply Ensures.bind
  · exact ensures_update (K := fun _ => Run.Aligned sound counted j (if moved then 1 else 0) 0)
      fun r h => h.checkProperties
  exact fun _ => .pure fun _ => id

theorem ensures_backtrack :
    Ensures (Heeded allowed (Run.Aligned sound counted j 0 0)) (backtrack (E := E) (P := P) (L := L))
      (fun moved => Heeded allowed (Run.Aligned sound counted j (if moved then -1 else 0) 0))
      fun f => Heeded allowed (Run.FailsInStep j f) := by
  apply Ensures.bind
  · exact ensures_change (K := Run.Aligned sound counted j 0 0) fun r h => h.congr rfl rfl rfl
  intro _
  exact ensures_update
    (K := fun moved : Bool => Run.Aligned sound counted j (if moved then -1 else 0) 0)
    fun r h => h.stepBack paced

/-- A return to a snapshot is no step, so it can only be made where steps are not counted. -/
theorem staysLevel_restore {snapshot : Snapshot (Engine.Saved E)} (made : genuine snapshot)
    (strategy : String) :
    StaysLevel sound allowed False j (restore (P := P) (L := L) snapshot strategy) := by
  apply Ensures.bind
  · exact ensures_change (K := Run.Aligned sound False j 0 0) fun r h => h.congr rfl rfl rfl
  intro _
  apply Ensures.bind
  · exact ensures_update (K := Run.Returned sound j snapshot) fun r h => h.stepTo paced made
  intro accepted
  cases accepted with
  | true => exact ensures_change (J := Run.Returned sound j snapshot true) fun r h => h.level
  | false => exact .throw fun s h => h.imp fun r h => ⟨by simp, h.news⟩

end Engine

section Announcements

variable [Listener E P L] (paced : Engine.Paced sound genuine)
  (restrained : Listener.Restrained (P := P) (Run.AtPath sound) allowed)

include paced restrained

theorem ensures_announcement (event : Event) :
    Ensures (Heeded allowed (Run.Aligned sound counted j 0 due)) (announce (P := P) event)
      (fun _ => Heeded allowed (Run.Aligned sound counted j 0 (due + event.rise)))
      fun f => Heeded allowed (Run.FailsInStep j f) :=
  ensures_announce restrained (fun _ n h => h.announced n event) (fun _ h => h.atPath)
    (fun _ _ h attended => h.attended paced attended) fun _ _ h fault => h.failsInStep fault

theorem staysLevel_announce {event : Event} (plain : event.rise = 0) :
    StaysLevel sound allowed counted j (announce (P := P) event) := by
  have announced : Ensures (Heeded allowed (Run.Aligned sound counted j 0 0)) (announce (P := P) event)
      (fun _ => Heeded allowed (Run.Aligned sound counted j 0 (0 + event.rise)))
      fun f => Heeded allowed (Run.FailsInStep j f) :=
    ensures_announcement paced restrained event
  rwa [plain] at announced

end Announcements

end Search

end Statewalk
