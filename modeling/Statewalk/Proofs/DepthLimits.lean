import Mathlib.Algebra.Order.BigOperators.Group.Finset
import Statewalk.Proofs.DepthFirstTermination
import Statewalk.Proofs.DepthTracking
import Statewalk.Proofs.Disciplines
import Statewalk.Proofs.ViolationAccounts

/-! # Depth limits

What a run over a graph enters in its journal while it keeps to a depth limit, and what its operations
do as long as it does.  `Run.Stationed` says where the engine stands: at which depth, and how many
transitions a state on its path has still to take.  Only moves of the engine change that; all the rest,
and whatever restrained listeners do, passes by (`Run.Passes`).
-/

namespace Statewalk

/-! ## Entries -/

/-- Steps forward are made from a depth below the limit, and lead no deeper than to the limit. -/
def Entry.keepsTo (limit : Nat) : Entry → Prop
  | .moved .forward depth true => depth < limit
  | .announced b => b.event = .stateAdvanced → b.depth ≤ limit ∧ b.pathLength ≤ limit
  | _ => True

instance (limit : Nat) : DecidablePred (Entry.keepsTo limit) := fun e => by
  unfold Entry.keepsTo
  split <;> infer_instance

/-- A state at the limit or beyond was stored. -/
def Entry.overruns (limit : Nat) : Entry → Prop
  | .announced b => b.event = .stateStored ∧ limit ≤ b.depth
  | _ => False

namespace Entry

variable {e : Entry} (limit : Nat)

theorem keepsTo_of_isAside (h : e.isAside = true) : e.keepsTo limit := by
  cases e <;> trivial

theorem keepsTo_of_isChore (h : e.isChore = true) : e.keepsTo limit := by
  cases e <;> trivial

end Entry

namespace Journal

variable {limit : Nat} {j j' j'' : Journal} {e : Entry}

/-- All entries since then keep to the limit. -/
def KeepsTo (limit : Nat) (j j' : Journal) : Prop :=
  ∃ news, j'.recent = news ++ j.recent ∧ ∀ e ∈ news, e.keepsTo limit

/-- Since then a state at the limit or beyond was stored. -/
def Overruns (limit : Nat) (j j' : Journal) : Prop :=
  ∃ news, j'.recent = news ++ j.recent ∧ ∃ e ∈ news, e.overruns limit

namespace KeepsTo

theorem refl (limit : Nat) (j : Journal) : KeepsTo limit j j :=
  ⟨[], by simp⟩

theorem trans (h : KeepsTo limit j j') (h' : KeepsTo limit j' j'') : KeepsTo limit j j'' := by
  obtain ⟨news, recent, kept⟩ := h
  obtain ⟨news', recent', kept'⟩ := h'
  refine ⟨news' ++ news, by simp [recent', recent], ?_⟩
  intro e member
  cases List.mem_append.1 member with
  | inl member => exact kept' e member
  | inr member => exact kept e member

theorem record (h : e.keepsTo limit) (j : Journal) : KeepsTo limit j (j.record e) :=
  ⟨[e], rfl, by simpa using h⟩

theorem of_mem_entriesFrom (h : KeepsTo limit j j') (member : e ∈ j'.entriesFrom j.length) : e.keepsTo limit := by
  obtain ⟨news, recent, kept⟩ := h
  simp only [entriesFrom, length, recent, List.length_append, Nat.add_sub_cancel, List.take_left,
    List.mem_reverse] at member
  exact kept e member

end KeepsTo

theorem Overruns.more (h : Overruns limit j j') {more : List Entry}
    (recent : j''.recent = more ++ j'.recent) : Overruns limit j j'' := by
  obtain ⟨news, before, e, member, deep⟩ := h
  exact ⟨more ++ news, by simp [recent, before], e, List.mem_append_right _ member, deep⟩

theorem Overruns.of_record (h : KeepsTo limit j j') (deep : e.overruns limit) :
    Overruns limit j (j'.record e) := by
  obtain ⟨news, recent, -⟩ := h
  exact ⟨e :: news, by simp [Journal.record, recent], e, List.mem_cons_self, deep⟩

end Journal

/-! ## Transitions that are left -/

theorem Frame.Proper.length_remaining_le {g : StateGraph} {f : Frame} (h : f.Proper g) :
    (f.remaining g).length ≤ (g.outgoing f.state).length := by
  have all : (g.picks f.state f.choices).Perm (g.outgoing f.state) := by
    rw [← g.picks_declared f.state]
    exact h.perm.filterMap _
  have rest : (f.remaining g).Sublist (g.picks f.state f.choices) :=
    (List.drop_sublist f.tried f.choices).filterMap _
  exact rest.length_le.trans all.length_eq.le

theorem StateGraph.length_outgoing_le_total (g : StateGraph) (s : StateId) :
    (g.outgoing s).length ≤ Ledger.total g := by
  by_cases inside : s < g.size
  · rw [Ledger.total, DepthFirst.length_flatMap_steps]
    exact Finset.single_le_sum (f := fun s => (g.outgoing s).length) (fun _ _ => Nat.zero_le _)
      (Finset.mem_range.2 inside)
  · have outside : g.states[s]? = none := by simpa [StateGraph.size] using inside
    simp [StateGraph.outgoing, StateGraph.edges, StateGraph.state?, outside]

/-! ## Runs -/

namespace Run

variable {P : Type} {g : StateGraph} {c : Config} {j : Journal} {r r' r'' : Run GraphEngine P}
  {below d m : Nat}

/-- What happens besides moves of the engine, while the run keeps to the limit. -/
structure Passes (limit : Nat) (r r' : Run GraphEngine P) : Prop where
  engine : Engine.Marked r.engine r'.engine
  config : r'.config = r.config
  depth : r'.depth = r.depth
  journal : r.journal.KeepsTo limit r'.journal

namespace Passes

variable {limit : Nat}

theorem of_eq (engine : r'.engine = r.engine) (config : r'.config = r.config) (depth : r'.depth = r.depth)
    (journal : r'.journal = r.journal) : Passes limit r r' :=
  ⟨engine ▸ .refl, config, depth, journal ▸ .refl limit r.journal⟩

theorem record {e : Entry} (r : Run GraphEngine P) (kept : e.keepsTo limit) : Passes limit r (r.record e) :=
  ⟨.refl, rfl, rfl, .record kept r.journal⟩

theorem of_attended (h : r.Attended r') : Passes limit r r' := by
  obtain ⟨asides, recent, aside⟩ := h.journal
  exact ⟨h.engine, h.config, h.depth, asides, recent, fun e member => e.keepsTo_of_isAside limit (aside e member)⟩

theorem checkProperties [Checkable GraphEngine P] (r : Run GraphEngine P) :
    Passes limit r r.checkProperties.2 := by
  unfold Run.checkProperties
  split
  rename_i properties violated _
  cases violated with
  | none => exact .of_eq rfl rfl rfl rfl
  | some w => exact ⟨.refl, rfl, rfl, .record (e := .violated _ _ _) trivial _⟩

end Passes

/-- The run keeps to the limit. -/
structure Limited (g : StateGraph) (c : Config) (j : Journal) (r : Run GraphEngine P) : Prop where
  wellFormed : r.engine.WellFormed g
  config : r.config = c
  journal : j.KeepsTo c.depthLimit r.journal

/-- The run keeps to the limit at the given depth.  The frame that lies so far below the top has so many
    transitions left to take. -/
structure Stationed (g : StateGraph) (c : Config) (j : Journal) (below d m : Nat)
    (r : Run GraphEngine P) : Prop extends Limited g c j r where
  depth : r.depth = d
  frames : r.engine.frames.length = d + 1
  inside : d ≤ c.depthLimit
  left : (r.engine.frames[below]?.map fun f => (f.remaining g).length) = some m

/-- Whatever passes by leaves it alone. -/
def Enduring (g : StateGraph) (c : Config) (j : Journal) (J : Run GraphEngine P → Prop) : Prop :=
  (∀ r, J r → r.Limited g c j) ∧ ∀ r r', J r → Passes c.depthLimit r r' → J r'

theorem Limited.passes (h : r.Limited g c j) (passes : Passes c.depthLimit r r') : r'.Limited g c j :=
  ⟨((GraphEngine.paced g).ignored h.wellFormed passes.engine).1, passes.config.trans h.config,
    h.journal.trans passes.journal⟩

theorem Stationed.passes (h : r.Stationed g c j below d m) (passes : Passes c.depthLimit r r') :
    r'.Stationed g c j below d m := by
  have frames : r'.engine.frames = r.engine.frames := by rw [GraphEngine.eq_of_marked passes.engine]
  exact ⟨h.toLimited.passes passes, passes.depth.trans h.depth, frames ▸ h.frames, h.inside, frames ▸ h.left⟩

theorem enduring_limited (g : StateGraph) (c : Config) (j : Journal) :
    Enduring (P := P) g c j (Limited g c j) :=
  ⟨fun _ h => h, fun _ _ h => h.passes⟩

theorem enduring_stationed : Enduring (P := P) g c j (Stationed g c j below d m) :=
  ⟨fun _ h => h.toLimited, fun _ _ h => h.passes⟩

/-! ### Moves -/

theorem keepsTo_stepJournal {limit : Nat} (r : Run GraphEngine P)
    (shallow : (Engine.forward r.engine).1 = true → r.depth < limit) :
    r.journal.KeepsTo limit (r.stepJournal r.journal) := by
  have moved : Entry.keepsTo limit (.moved .forward r.depth (Engine.forward r.engine).1) := by
    cases advanced : (Engine.forward r.engine).1 with
    | true => exact shallow advanced
    | false => trivial
  have after := Journal.KeepsTo.record moved r.journal
  unfold stepJournal
  split
  · rename_i e _ crossed
    unfold crossing? at crossed
    split at crossed
    · obtain ⟨t, -, rfl⟩ := Option.map_eq_some_iff.1 crossed
      exact after.trans (.record (e := .crossed _ t _) trivial _)
    · cases crossed
  · exact after

/-- A state below the limit takes one of its transitions, or has none left. -/
theorem Stationed.stepped (h : r.Stationed g c j 0 d m) (shallow : d < c.depthLimit) :
    ((Engine.forward r.engine).1 = true ∧ ∃ n, m = n + 1 ∧
        Stationed g c j 1 (d + 1) n { r.stepped with depth := d + 1 }) ∨
      ((Engine.forward r.engine).1 = false ∧ r.stepped.Stationed g c j 0 d m) := by
  have journal : j.KeepsTo c.depthLimit r.stepped.journal :=
    h.journal.trans (keepsTo_stepJournal r fun _ => h.depth ▸ shallow)
  obtain ⟨top, rest, frames⟩ := h.wellFormed.exists_frames
  have length := h.frames
  have remaining := h.left
  simp only [frames, List.length_cons] at length
  simp only [frames, List.getElem?_cons_zero, Option.map_some, Option.some.injEq] at remaining
  obtain ⟨edge, enters⟩ | ⟨-, stuck⟩ := h.wellFormed.forward_cases frames
  · have engine := engine_stepped_of_enters enters
    refine .inl ⟨by simp [enters.forward], (top.next.remaining g).length, ?_, ⟨?_, h.config, journal⟩, rfl, ?_,
      shallow, ?_⟩
    · rw [← remaining, enters.remaining, List.length_cons]
    · exact engine ▸ enters.wellFormed
    · simp [engine, length]
    · simp [engine]
  · have engine := engine_stepped_of_stuck stuck
    refine .inr ⟨by simp [stuck], ⟨?_, h.config, journal⟩, h.depth, ?_, h.inside, ?_⟩
    · exact engine ▸ h.wellFormed.stall
    · rw [engine]
      exact h.frames
    · rw [engine]
      exact h.left

/-- A successor is left for the state that it was entered from. -/
theorem Stationed.stepBack (h : r.Stationed g c j 1 (d + 1) m) :
    r.forgetQuery.stepBack.1 = true ∧
      Stationed g c j 0 d m { r.forgetQuery.stepBack.2 with depth := d } := by
  obtain ⟨top, rest, frames⟩ := h.wellFormed.exists_frames
  have length := h.frames
  have remaining := h.left
  cases rest with
  | nil => simp [frames] at length
  | cons lower rest =>
    simp only [frames, List.length_cons] at length
    simp only [frames, List.getElem?_cons_succ, List.getElem?_cons_zero] at remaining
    have engine := engine_stepBack_of_frames frames
    have inside := h.inside
    have journal : j.KeepsTo c.depthLimit r.forgetQuery.stepBack.2.journal :=
      h.journal.trans (.record (e := .moved .backtrack r.depth _) trivial _)
    refine ⟨congrArg Prod.fst (GraphEngine.backtrack_of_frames frames), ⟨?_, h.config, journal⟩, rfl, ?_, ?_, ?_⟩
    · exact engine ▸ h.wellFormed.backtrack frames
    · simp only [engine, GraphEngine.frames_popped, List.length_cons]
      omega
    · omega
    · simpa [engine] using remaining

/-- A genuine snapshot is always accepted. -/
theorem Limited.stepTo (h : r.Limited g c j) {snapshot : Snapshot GraphEngine.Saved}
    (genuine : GraphEngine.Genuine g snapshot) (shallow : snapshot.pathLength ≤ c.depthLimit) :
    (r.stepTo snapshot).1 = true ∧ ∃ left ≤ Ledger.total g, Stationed g c j 0 snapshot.pathLength left
      { (r.stepTo snapshot).2 with depth := snapshot.pathLength } := by
  obtain ⟨wellFormed, -⟩ := (GraphEngine.paced g).restore snapshot r.engine genuine h.wellFormed
  have journal : j.KeepsTo c.depthLimit (r.stepTo snapshot).2.journal :=
    h.journal.trans (.record (e := .moved .restore r.depth _) trivial _)
  obtain ⟨e, sound, rfl⟩ := genuine
  obtain ⟨top, rest, frames⟩ := sound.exists_frames
  have proper := (frames ▸ sound.stacked).proper
  have length : e.snapshot.pathLength = rest.length := by simp [GraphEngine.snapshot, frames]
  have restored : (r.stepTo e.snapshot).2.engine.frames = top :: rest := frames
  refine ⟨rfl, (top.remaining g).length, ?_, ⟨wellFormed, h.config, journal⟩, rfl, ?_, shallow, ?_⟩
  · exact proper.length_remaining_le.trans (g.length_outgoing_le_total _)
  · rw [length]
    exact congrArg List.length restored
  · simp [restored]

end Run

/-! ## Operations -/

/-- What a run may fail with: whatever listeners fail with, what cannot be answered, and numbers that
    are no words. -/
structure Failure.Covers {P L : Type} [Listener GraphEngine P L] (fair : Failure → Prop) (allowed : L → Prop)
    (c : Config) : Prop where
  told : ∀ event f (r : Run GraphEngine P), Listener.BreaksOff allowed (fun _ => True) event f r → fair f
  asked : ∀ f (r r' : Run GraphEngine P), r.config = c → Run.isNew r = .error f r' → fair f
  counted : wordLimit ≤ c.depthLimit → fair (.fault .additionOverflow)

namespace Search

variable {P L : Type} {g : StateGraph} {c : Config} {j : Journal}
  {fair : Failure → Prop} {allowed : L → Prop} {J : Run GraphEngine P → Prop} {α : Type} {d m : Nat}

/-- The operation leads from runs with `J` to runs with `K`, or fails fairly with a run that kept to the
    limit. -/
def Heads (c : Config) (j : Journal) (fair : Failure → Prop) (allowed : L → Prop)
    (J : Run GraphEngine P → Prop) (x : SearchM GraphEngine P L α) (K : α → Run GraphEngine P → Prop) : Prop :=
  Proceeds (fun r => j.KeepsTo c.depthLimit r.journal) fair allowed J x K

section Enduring

variable (enduring : Run.Enduring g c j J)

include enduring

theorem heads_change {f : Run GraphEngine P → Run GraphEngine P}
    (passes : ∀ r, Run.Passes c.depthLimit r (f r)) : Heads (L := L) c j fair allowed J (change f) fun _ => J :=
  .change fun r hr => enduring.2 r _ hr (passes r)

theorem heads_update {f : Run GraphEngine P → α × Run GraphEngine P}
    (passes : ∀ r, Run.Passes c.depthLimit r (f r).2) :
    Heads (L := L) c j fair allowed J (update f) fun _ => J :=
  .update fun r hr => enduring.2 r _ hr (passes r)

variable [Listener GraphEngine P L]
  (restrained : Listener.Restrained (E := GraphEngine) (P := P) (fun _ => True) allowed)
  (covers : Failure.Covers (P := P) fair allowed c)

include covers

theorem heads_isNew : Heads (L := L) c j fair allowed J isNew fun _ => J := by
  apply ensures_onRun
  intro r hr
  have limited := enduring.1 r hr
  obtain ⟨answer, depths, query, asked, -⟩ | ⟨f, failed, -⟩ := Run.isNew_cases r
  · rw [asked]
    exact enduring.2 r _ hr (.of_eq rfl rfl rfl rfl)
  · rw [failed]
    exact And.intro limited.journal (covers.asked f r r limited.config failed)

include restrained

theorem heads_announcement {event : Event} (announced : ∀ r n, J r →
      (Entry.announced (Run.bulletin n event r)).keepsTo c.depthLimit) :
    Heads (L := L) c j fair allowed J (announce event) fun _ => J := by
  have robust : Run.Robust J := .of_attended fun r r' hr attended => enduring.2 r r' hr (.of_attended attended)
  have told := robust_announce (restrained.of_imp fun _ _ => trivial) robust
    fun r n hr => enduring.2 r _ hr (.record r (announced r n hr))
  apply told.imp_fail
  intro f s hs
  exact hs.imp fun r h => ⟨(enduring.1 r h.1).journal, covers.told _ f r (h.2.imp fun _ _ => trivial)⟩

theorem heads_announce {event : Event} (other : event ≠ .stateAdvanced) :
    Heads (L := L) c j fair allowed J (announce event) fun _ => J :=
  heads_announcement enduring restrained covers fun _ _ _ advanced => absurd advanced other

theorem heads_pollProbe : Heads (L := L) c j fair allowed J pollProbe fun _ => J := by
  apply Proceeds.bind (heads_update enduring fun _ => .of_eq rfl rfl rfl rfl)
  intro requested
  split
  · exact heads_announce enduring restrained covers (by decide)
  · exact .pure fun _ h => h

theorem heads_announceConstraint (details : String) :
    Heads (L := L) c j fair allowed J (announceConstraint details) fun _ => J := by
  have noted : Heads (L := L) c j fair allowed J (change fun r => { r with lastConstraint := some details })
      fun _ => J := heads_change enduring fun _ => .of_eq rfl rfl rfl rfl
  exact Proceeds.bind noted fun _ => heads_announce enduring restrained covers (by decide)

theorem heads_announceMemoryLimit : Heads (L := L) c j fair allowed J announceMemoryLimit fun _ => J := by
  apply Proceeds.bind proceeds_look
  exact fun _ => heads_announceConstraint enduring restrained covers _

theorem heads_announceViolation [Property P] :
    Heads (L := L) c j fair allowed J announceViolation fun _ => J := by
  apply Proceeds.bind (heads_announce enduring restrained covers (by decide))
  intro _
  apply Proceeds.bind proceeds_look
  intro continues
  split
  · exact heads_change enduring fun _ => .of_eq rfl rfl rfl rfl
  · exact .pure fun _ h => h

end Enduring

/-- An advance is announced at the depth and with the path that it led to. -/
theorem heads_advanced [Listener GraphEngine P L] {below : Nat}
    (restrained : Listener.Restrained (E := GraphEngine) (P := P) (fun _ => True) allowed)
    (covers : Failure.Covers (P := P) fair allowed c) :
    Heads (P := P) (L := L) c j fair allowed (Run.Stationed g c j below d m) (announce .stateAdvanced)
      fun _ => Run.Stationed g c j below d m := by
  apply heads_announcement Run.enduring_stationed restrained covers
  intro r _ h _
  have length := h.wellFormed.frames_length
  have depth := h.depth
  have inside := h.inside
  rw [h.frames] at length
  constructor
  · show r.depth ≤ c.depthLimit
    omega
  · show r.engine.path.length ≤ c.depthLimit
    omega

/-! ### Moves -/

/-- The step is still to be counted. -/
theorem heads_forward [Checkable GraphEngine P] (shallow : d < c.depthLimit) :
    Heads (L := L) c j fair allowed (Run.Stationed g c j 0 d m) (forward (E := GraphEngine) (P := P))
      fun moved r => if moved then
          ∃ n, m = n + 1 ∧ r.depth = d ∧ Run.Stationed g c j 1 (d + 1) n { r with depth := d + 1 }
        else r.Stationed g c j 0 d m := by
  apply Proceeds.bind (K := fun _ r => ∃ r₀, Run.Stationed g c j 0 d m r₀ ∧
    r = { r₀ with atViolation := false, lastQuery := none })
  · exact .change fun r h => ⟨r, h, rfl⟩
  intro _
  apply Proceeds.bind (K := fun moved r => ∃ r₀, Run.Stationed g c j 0 d m r₀ ∧
    moved = (Engine.forward r₀.engine).1 ∧ r = r₀.stepped)
  · apply Proceeds.update
    rintro _ ⟨r, h, rfl⟩
    rw [Run.stepForward_eq]
    exact ⟨r, h, rfl, rfl⟩
  intro moved
  refine Proceeds.bind (.update ?_) fun _ => .pure fun _ h => h
  rintro _ ⟨r, h, rfl, rfl⟩
  have checked : Run.Passes c.depthLimit r.stepped r.stepped.checkProperties.2 := .checkProperties _
  obtain ⟨advanced, n, more, entered⟩ | ⟨stuck, stays⟩ := h.stepped shallow
  · rw [if_pos advanced]
    exact ⟨n, more, checked.depth.trans h.depth, entered.passes ⟨checked.engine, checked.config, rfl, checked.journal⟩⟩
  · rw [if_neg (by simp [stuck])]
    exact stays.passes checked

theorem heads_descend (covers : wordLimit ≤ c.depthLimit → fair (.fault .additionOverflow)) :
    Heads (L := L) c j fair allowed
      (fun r : Run GraphEngine P => ∃ n, m = n + 1 ∧ r.depth = d ∧
        Run.Stationed g c j 1 (d + 1) n { r with depth := d + 1 })
      (onRun Run.descend) fun _ r => ∃ n, m = n + 1 ∧ r.Stationed g c j 1 (d + 1) n := by
  apply ensures_onRun
  apply Ensures.get
  rintro r ⟨n, more, rfl, h⟩
  unfold addWords
  split_ifs with small
  · exact .set (.pure fun _ eq => eq ▸ ⟨n, more, h⟩)
  · have inside := h.inside
    exact .throw fun _ eq => eq ▸ ⟨h.journal, covers (by omega)⟩

theorem heads_backtrack :
    Heads (L := L) c j fair allowed (Run.Stationed g c j 1 (d + 1) m) (backtrack (E := GraphEngine) (P := P))
      fun moved r => moved = true ∧ r.depth = d + 1 ∧ Run.Stationed g c j 0 d m { r with depth := d } := by
  apply Proceeds.bind (K := fun _ r => ∃ r₀, Run.Stationed g c j 1 (d + 1) m r₀ ∧ r = r₀.forgetQuery)
  · exact .change fun r h => ⟨r, h, rfl⟩
  intro _
  apply Proceeds.update
  rintro _ ⟨r, h, rfl⟩
  obtain ⟨moved, returned⟩ := h.stepBack
  exact ⟨moved, h.depth, returned⟩

theorem heads_ascend :
    Heads (L := L) c j fair allowed
      (fun r : Run GraphEngine P => r.depth = d + 1 ∧ Run.Stationed g c j 0 d m { r with depth := d })
      (onRun Run.ascend) fun _ => Run.Stationed g c j 0 d m := by
  apply ensures_onRun
  apply Ensures.get
  rintro r ⟨depth, h⟩
  simp only [depth, Nat.add_one_ne_zero, if_false, Nat.add_sub_cancel]
  exact .set (.pure fun _ eq => eq ▸ h)

theorem heads_restore {snapshot : Snapshot GraphEngine.Saved} (genuine : GraphEngine.Genuine g snapshot)
    (shallow : snapshot.pathLength ≤ c.depthLimit) (strategy : String) :
    Heads (L := L) c j fair allowed (Run.Limited (P := P) g c j) (restore (E := GraphEngine) snapshot strategy)
      fun _ r => ∃ m ≤ Ledger.total g, r.Stationed g c j 0 snapshot.pathLength m := by
  apply Proceeds.bind (K := fun _ => Run.Limited g c j)
  · exact heads_change (Run.enduring_limited g c j) fun _ => .of_eq rfl rfl rfl rfl
  intro _
  apply Proceeds.bind (K := fun accepted r => accepted = true ∧ ∃ m ≤ Ledger.total g,
    Run.Stationed g c j 0 snapshot.pathLength m { r with depth := snapshot.pathLength })
  · exact .update fun r h => h.stepTo genuine shallow
  intro accepted
  cases accepted with
  | true => exact fun s hs => ⟨hs.listeners, hs.reporter, hs.run.2⟩
  | false =>
    apply Ensures.throw
    intro s hs
    cases hs.run.1

/-! ### Overruns -/

/-- Nothing is taken out of a journal, so a limit that was overrun stays so. -/
theorem discipline_overruns {E : Type} [Engine E] [Checkable E P] [Listener E P L]
    (restrained : Listener.Restrained (E := E) (P := P) (fun _ => True) allowed) (limit : Nat) (j : Journal) :
    Discipline (E := E) (P := P) (fun _ => Heeded allowed fun r => j.Overruns limit r.journal)
      (Heeded allowed fun r => j.Overruns limit r.journal)
      (fun _ => Heeded allowed fun r => j.Overruns limit r.journal) := by
  have grows {s : Search E P L} {r : Run E P} {n : List Entry}
      (hs : s.Heeded allowed fun r => j.Overruns limit r.journal)
      (recent : r.journal.recent = n ++ s.run.journal.recent) :
      ({ s with run := r } : Search E P L).Heeded allowed fun r => j.Overruns limit r.journal :=
    ⟨hs.listeners, hs.reporter, hs.run.more recent⟩
  have kept (o : Occurrence) (s t : Search E P L) (does : Does o s t)
      (hs : s.Heeded allowed fun r => j.Overruns limit r.journal) :
      t.Heeded allowed fun r => j.Overruns limit r.journal := by
    cases does with
    | turn => exact hs
    | forward =>
      obtain ⟨news, recent⟩ : ∃ news, (s.run.stepJournal s.run.journal).recent = news ++ s.run.journal.recent := by
        unfold Run.stepJournal
        split
        · exact ⟨[_, _], rfl⟩
        · exact ⟨[_], rfl⟩
      rw [Run.stepForward_eq]
      exact grows hs recent
    | backtrack => exact grows hs (n := [_]) rfl
    | restore => exact grows hs (n := [_]) rfl
    | rechoose => exact grows hs (n := []) rfl
    | check =>
      unfold Run.checkProperties
      split
      rename_i properties violated _
      cases violated with
      | none => exact grows hs (n := []) rfl
      | some w => exact grows hs (n := [_]) rfl
    | announce => exact grows hs (n := [_]) rfl
    | call event there =>
      have told := Listener.tell_robust (J := s.run.Attended) (restrained.of_imp fun _ _ => trivial)
        (.of_attended fun _ _ first second => first.trans second) (hs.allowed_of_hearers there)
        (.refl s.run) event
      obtain ⟨asides, recent, -⟩ := told.run.journal
      exact hs.heard ⟨told.listener, hs.run.more recent, told.verdict⟩ _
    | clear => exact grows hs (n := []) rfl
    | chore chore =>
      obtain ⟨notes, recent, -⟩ := chore.journal
      exact grows hs recent
  apply Discipline.of_kept kept
  · exact fun number event f s l hs there _ => kept _ _ _ (.call event there) hs
  · exact fun _ _ hs _ => hs

end Search

end Statewalk
