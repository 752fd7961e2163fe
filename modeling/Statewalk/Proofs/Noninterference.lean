import Statewalk.Proofs.Bystanders
import Statewalk.Proofs.DepthFirstTermination
import Statewalk.Proofs.LeastDepth

/-! # Noninterference

A depth-first search over a graph does not depend on whether statistics are kept.  The search is run in
tandem with the same search that a bystander has joined.  When either moves its engine, the same is known
of newness in both: whatever the bystander asked for when a state was entered is asked for by the search
itself before it leaves the state.  In between only what a question comes to has to be the same.
-/

namespace Statewalk

/-! ## Moves in tandem -/

/-- Properties are checked without a look at what runs differ in that look alike. -/
def Checkable.Impartial (P : Type) [Checkable GraphEngine P] (i : Nat) : Prop :=
  ∀ (r r' : Run GraphEngine P) (p : P), r.LooksLike i r' → Checkable.check r' p = Checkable.check r p

namespace Run.Abreast

variable {P : Type} {c : Company} {strict : Prop} {r r' : Run GraphEngine P}

theorem stepForward (h : r.Abreast c True r') :
    r'.stepForward.1 = r.stepForward.1 ∧ r.stepForward.2.Abreast c True r'.stepForward.2 := by
  obtain ⟨tallies, journal, rfl⟩ := h.exists_eq
  rw [stepForward_eq, stepForward_eq]
  refine ⟨rfl, of_tallies h.tallies ?_⟩
  have moved (done : Bool) := h.journal.both (.moved .forward r.depth done)
  show c.Accompanies (r.stepJournal r.journal).recent (r.stepJournal journal).recent
  unfold stepJournal
  cases (Engine.forward r.engine).1 <;> cases crossing? r.engine (Engine.forward r.engine).2
  · exact moved false
  · exact moved false
  · exact moved true
  · exact (moved true).both _

theorem stepBack (h : r.Abreast c True r') :
    r'.stepBack.1 = r.stepBack.1 ∧ r.stepBack.2.Abreast c True r'.stepBack.2 := by
  obtain ⟨tallies, journal, rfl⟩ := h.exists_eq
  exact ⟨rfl, of_tallies h.tallies (h.journal.both _)⟩

variable [Checkable GraphEngine P]

omit strict in
theorem checkUntil_eq (impartial : Checkable.Impartial P c.tally) (h : r.LooksLike c.tally r')
    (ws : List (Watched P)) : checkUntil r' ws = checkUntil r ws := by
  induction ws with
  | nil => rfl
  | cons w ws ih => simp only [checkUntil, impartial r r' w.property h, ih]

theorem checkProperties (impartial : Checkable.Impartial P c.tally) (h : r.Abreast c True r') :
    r'.checkProperties.1 = r.checkProperties.1 ∧
      r.checkProperties.2.Abreast c True r'.checkProperties.2 := by
  have checked := checkUntil_eq impartial h.toLooksLike r.properties
  obtain ⟨tallies, journal, rfl⟩ := h.exists_eq
  simp only [Run.checkProperties, checked]
  split
  · exact ⟨rfl, of_tallies h.tallies (h.journal.both _)⟩
  · exact ⟨rfl, of_tallies h.tallies h.journal⟩

end Run.Abreast

/-! ## Operations in tandem -/

namespace Search

variable {P L : Type} {c : Company} {seat : Seat} {keeper allowed : L → Prop} {strict : Prop}

/-- A change that neither looks at tallies and journal nor touches them. -/
theorem tandem_alter {f : Run GraphEngine P → Run GraphEngine P}
    (blind : ∀ r tallies journal, f { r with tallies := tallies, journal := journal } =
      { f r with tallies := tallies, journal := journal })
    (spares : ∀ r, (f r).tallies = r.tallies ∧ (f r).journal = r.journal) :
    Tandem (Beside c seat keeper True) (change f) (change f) (fun _ => Beside (L := L) c seat keeper True)
      (Beside c seat keeper False) := by
  apply tandem_change
  intro r r' abreast
  obtain ⟨tallies, journal⟩ := spares r
  have accompanies := abreast.journal
  have others := abreast.tallies
  obtain ⟨tallies', journal', rfl⟩ := abreast.exists_eq
  rw [blind r tallies' journal']
  refine .of_tallies ?_ ?_
  · rw [tallies]
    exact others
  · rw [journal]
    exact accompanies

theorem tandem_isNew : Tandem (Beside c seat keeper False) (isNew (E := GraphEngine) (P := P)) isNew
    (fun _ => Beside (L := L) c seat keeper True) (Beside c seat keeper False) := by
  apply tandem_onRun
  intro r r' abreast
  -- The runs may differ in what is known so far, but not in what the question comes to, and that is all
  -- that is known afterwards.
  cases asked : r.inquire with
  | ok result =>
    rw [Run.isNew_of_inquire asked, Run.isNew_of_inquire (abreast.inquiry.trans asked)]
    exact .ok (abreast.inquired_of_ok asked)
  | error f =>
    rw [Run.isNew_of_inquire_error asked, Run.isNew_of_inquire_error (abreast.inquiry.trans asked)]
    exact .error abreast

theorem tandem_mustLeave (limitReached : Bool) :
    Tandem (Beside c seat keeper False) (DepthFirst.mustLeave (E := GraphEngine) (P := P) limitReached)
      (DepthFirst.mustLeave limitReached) (fun _ => Beside (L := L) c seat keeper True)
      (Beside c seat keeper False) := by
  refine tandem_isNew.bind fun answer => ?_
  refine Tandem.bind (S := fun _ => Beside c seat keeper True) (tandem_update fun r r' abreast => ?_) fun requested => ?_
  · obtain ⟨tallies, journal, rfl⟩ := abreast.exists_eq
    exact ⟨rfl, .of_tallies abreast.tallies abreast.journal⟩
  refine (tandem_look fun _ _ _ _ _ => rfl).bind fun engine => ?_
  exact .pure fun _ _ h => h

theorem tandem_backtrack :
    Tandem (Beside c seat keeper True) (backtrack (E := GraphEngine) (P := P)) backtrack
      (fun _ => Beside (L := L) c seat keeper True) (Beside c seat keeper False) := by
  refine Tandem.bind (tandem_alter (fun _ _ _ => rfl) fun _ => ⟨rfl, rfl⟩) fun _ => ?_
  exact tandem_update fun r r' abreast => abreast.stepBack

theorem tandem_forward [Checkable GraphEngine P] (impartial : Checkable.Impartial P c.tally) :
    Tandem (Beside c seat keeper True) (forward (E := GraphEngine) (P := P)) forward
      (fun _ => Beside (L := L) c seat keeper True) (Beside c seat keeper False) := by
  refine Tandem.bind (tandem_alter (fun _ _ _ => rfl) fun _ => ⟨rfl, rfl⟩) fun _ => ?_
  refine Tandem.bind (tandem_update fun r r' abreast => abreast.stepForward) fun advanced => ?_
  refine Tandem.bind (tandem_update fun r r' abreast => abreast.checkProperties impartial) fun _ => ?_
  exact .pure fun _ _ h => h

theorem tandem_descend :
    Tandem (Beside c seat keeper True) (onRun (E := GraphEngine) (P := P) Run.descend) (onRun Run.descend)
      (fun _ => Beside (L := L) c seat keeper True) (Beside c seat keeper False) := by
  apply tandem_onRun
  apply Tandem.get
  intro r r' abreast
  obtain ⟨tallies, journal, rfl⟩ := abreast.exists_eq
  dsimp only
  cases addWords r.depth 1 with
  | ok d =>
    rintro _ _ ⟨rfl, rfl⟩
    exact .ok (.of_tallies abreast.tallies abreast.journal)
  | error f =>
    rintro _ _ ⟨rfl, rfl⟩
    exact .error abreast.relax

theorem tandem_ascend :
    Tandem (Beside c seat keeper True) (onRun (E := GraphEngine) (P := P) Run.ascend) (onRun Run.ascend)
      (fun _ => Beside (L := L) c seat keeper True) (Beside c seat keeper False) := by
  apply tandem_onRun
  apply Tandem.get
  intro r r' abreast
  obtain ⟨tallies, journal, rfl⟩ := abreast.exists_eq
  dsimp only
  split
  · rintro _ _ ⟨rfl, rfl⟩
    exact .error abreast.relax
  · rintro _ _ ⟨rfl, rfl⟩
    exact .ok (.of_tallies abreast.tallies abreast.journal)

/-! ### Stirs -/

section Stirs

variable {α : Type} {J final : Run GraphEngine P → Prop} {fair : Failure → Prop}
  (stable : Run.Stable final fair J)

theorem level_look {f : Run GraphEngine P → α}
    (visible : ∀ r depths query tallies journal,
      f { r with depths := depths, lastQuery := query, tallies := tallies, journal := journal } = f r) :
    Tandem (Level c seat keeper allowed strict J) (look f) (look f)
      (fun _ => Level (L := L) c seat keeper allowed strict J) (Beside c seat keeper False) :=
  (tandem_look visible).and_left (Leads.look.imp fun _ _ h => h.1)

include stable

theorem level_update {f : Run GraphEngine P → α × Run GraphEngine P}
    (even : ∀ r r', r.Abreast c strict r' → (f r').1 = (f r).1 ∧ (f r).2.Abreast c strict (f r').2)
    (stirs : ∀ r, Run.Stirs r (f r).2) :
    Tandem (Level c seat keeper allowed strict J) (update f) (update f)
      (fun _ => Level (L := L) c seat keeper allowed strict J) (Beside c seat keeper False) :=
  (tandem_update even).and_left (Leads.update fun r hr => stable.unstirred.stirs hr (stirs r))

/-- A change of what everybody sees. -/
theorem level_change {f : Run GraphEngine P → Run GraphEngine P}
    (visible : ∀ r depths query tallies journal,
      f { r with depths := depths, lastQuery := query, tallies := tallies, journal := journal } =
        { f r with depths := depths, lastQuery := query, tallies := tallies, journal := journal })
    (same : ∀ r, (f r).tallies = r.tallies ∧ (f r).journal = r.journal ∧ (f r).depths = r.depths ∧
      (f r).lastQuery = r.lastQuery ∧ (f r).inquire = r.inquire) (stir : ∀ r, Run.Stir r (f r)) :
    Tandem (Level c seat keeper allowed strict J) (change f) (change f)
      (fun _ => Level (L := L) c seat keeper allowed strict J) (Beside c seat keeper False) :=
  level_update stable (f := fun r => ((), f r)) (fun _ _ abreast => ⟨rfl, abreast.flags visible same⟩)
    fun r => .single (stir r)

theorem level_endsAtViolation :
    Tandem (Level c seat keeper allowed strict J) (update Run.endsAtViolation) (update Run.endsAtViolation)
      (fun _ => Level (L := L) c seat keeper allowed strict J) (Beside c seat keeper False) := by
  refine level_update stable (fun r r' abreast => ?_) Run.stirs_endsAtViolation
  rw [Run.endsAtViolation_eq, Run.endsAtViolation_eq, abreast.settlement]
  exact ⟨rfl, Request.abreast_performAll _ abreast⟩

end Stirs

/-! ### Announcements -/

section Announcements

variable [Listener GraphEngine P L] {config : Config} {J final : Run GraphEngine P → Prop}
  {fair : Failure → Prop} (apart : Listener.Unobtrusive P c config allowed keeper)
  (configured : ∀ r, final r → r.config = config) (stable : Run.Stable final fair J)

include apart configured stable

theorem unnoticed : Listener.Unnoticed c config allowed keeper J :=
  { apart with
    robust := stable.unstirred.robust
    config := fun r h => configured r (stable.final r h) }

theorem level_announce {event : Event} (other : event ≠ .stateAdvanced) :
    Tandem (Level c seat keeper allowed strict J) (announce event) (announce event)
      (fun _ => Level c seat keeper allowed strict J) (Beside c seat keeper False) :=
  tandem_announce (unnoticed apart configured stable) (fun r _ h => stable.unstirred r _ h (.entry r rfl))
    fun advanced => absurd advanced other

theorem level_pollProbe :
    Tandem (Level c seat keeper allowed strict J) pollProbe pollProbe
      (fun _ => Level c seat keeper allowed strict J) (Beside c seat keeper False) := by
  refine Tandem.bind (level_update stable (fun r r' abreast => ?_) fun r => ?_) fun requested => ?_
  · have taken := abreast.flags (f := fun r => { r with probeRequested := false })
      (fun _ _ _ _ _ => rfl) fun _ => ⟨rfl, rfl, rfl, rfl, rfl⟩
    obtain ⟨depths, query, tallies, journal, rfl⟩ := abreast.seen
    exact ⟨rfl, taken⟩
  · exact .single (.flags rfl rfl rfl rfl rfl rfl rfl)
  · split
    · exact level_announce apart configured stable (by simp)
    · exact .pure fun _ _ h => h

theorem level_announceConstraint (details : String) :
    Tandem (Level c seat keeper allowed strict J) (announceConstraint details) (announceConstraint details)
      (fun _ => Level c seat keeper allowed strict J) (Beside c seat keeper False) := by
  refine Tandem.bind ?_ fun _ => level_announce apart configured stable (by simp)
  exact level_change stable (fun _ _ _ _ _ => rfl) (fun _ => ⟨rfl, rfl, rfl, rfl, rfl⟩)
    fun r => .flags rfl rfl rfl rfl rfl rfl rfl

theorem level_settleViolation [Property P] :
    Tandem (Level c seat keeper allowed strict J) settleViolation settleViolation
      (fun _ => Level c seat keeper allowed strict J) (Beside c seat keeper False) := by
  refine (level_look fun _ _ _ _ _ => rfl).bind fun violated => ?_
  split
  · refine Tandem.bind (S := fun _ => Level c seat keeper allowed strict J) ?_ fun _ => level_endsAtViolation stable
    refine (level_announce apart configured stable (by simp)).bind fun _ => ?_
    refine (level_look fun _ _ _ _ _ => rfl).bind fun continues => ?_
    split
    · exact level_change stable (fun _ _ _ _ _ => rfl) (fun _ => ⟨rfl, rfl, rfl, rfl, rfl⟩)
        fun r => .flags rfl rfl rfl rfl rfl rfl rfl
    · exact .pure fun _ _ h => h
  · exact .pure fun _ _ h => h

theorem level_checkLimits (limitReached : Bool) :
    Tandem (Level c seat keeper allowed strict J) (DepthFirst.checkLimits limitReached)
      (DepthFirst.checkLimits limitReached) (fun _ => Level c seat keeper allowed strict J)
      (Beside c seat keeper False) := by
  refine (level_look fun _ _ _ _ _ => rfl).bind fun limit => ?_
  refine (level_look fun _ _ _ _ _ => rfl).bind fun depth => ?_
  split
  · refine (level_announceConstraint apart configured stable _).bind fun _ => ?_
    exact .pure fun _ _ h => h
  · refine (level_update stable (fun _ _ abreast => abreast.hasMemory) Run.stirs_hasMemory).bind fun enough => ?_
    split
    · exact .pure fun _ _ h => h
    · refine Tandem.bind (S := fun _ => Level c seat keeper allowed strict J) ?_ fun _ => .pure fun _ _ h => h
      refine (level_look fun _ _ _ _ _ => rfl).bind fun _ => ?_
      exact level_announceConstraint apart configured stable _

end Announcements

end Search

/-! ## Depth-first search in tandem -/

namespace DepthFirst.Outline

open Search

variable {P L : Type} [Checkable GraphEngine P] [Listener GraphEngine P L] {c : Company} {seat : Seat}
  {keeper allowed : L → Prop} {config : Config} {head next opened final start : Run GraphEngine P → Prop}
  {asked : Bool → Run GraphEngine P → Prop} {fair : Failure → Prop}
  (outline : Outline head next opened final asked fair)
  (apart : Listener.Unobtrusive P c config allowed keeper) (impartial : Checkable.Impartial P c.tally)
  (configured : ∀ r, final r → r.config = config)
  (askable : ∀ r, next r → ∃ result, r.inquire = .ok result)

include outline apart impartial configured askable

theorem level_advance (limitReached : Bool) :
    Tandem (Level c seat keeper allowed True opened) (advance limitReached) (advance limitReached)
      (fun _ => Level c seat keeper allowed False next) (Beside c seat keeper False) := by
  refine Tandem.bind ((tandem_forward impartial).and_left outline.proceeds_forward) fun moved => ?_
  cases moved with
  | true =>
    refine Tandem.bind (tandem_descend.and_left outline.proceeds_descend) fun _ => ?_
    -- From here on only what a question comes to is the same, since the bystander asks it first.
    refine Tandem.of_imp (R := Level c seat keeper allowed False next) ?_ fun _ _ h => ⟨h.1.relax, h.2⟩
    refine Tandem.bind (tandem_announce (unnoticed apart configured outline.stable_next)
      (fun r _ h => outline.stable_next.unstirred r _ h (.entry r rfl)) fun _ => ⟨not_false, askable⟩) fun _ => ?_
    refine (level_settleViolation apart configured outline.stable_next).bind fun ends => ?_
    split
    · exact .pure fun _ _ h => h
    · exact level_checkLimits apart configured outline.stable_next limitReached
  | false =>
    refine Tandem.bind (S := fun _ => Level c seat keeper allowed True next)
      (level_announce apart configured outline.stable_next (by simp)) fun _ => ?_
    exact .pure fun _ _ h => h.relax

theorem level_iterate (limitReached : Bool) :
    Tandem (Level c seat keeper allowed False head) (iterate limitReached) (iterate limitReached)
      (Tandem.onTurn (fun _ => Level c seat keeper allowed False next)
        fun _ => Level c seat keeper allowed False final) (Beside c seat keeper False) := by
  have advances (limitReached : Bool) : Tandem (Level c seat keeper allowed True opened)
      (advance limitReached) (advance limitReached) (Tandem.onTurn (fun _ =>
        Level c seat keeper allowed False next) fun _ => Level c seat keeper allowed False final)
      (Beside c seat keeper False) := by
    apply (outline.level_advance apart impartial configured askable limitReached).imp
    intro turn s t h
    cases turn with
    | again _ => exact h
    | stop _ => exact h.imp outline.stable_next.final
  refine (level_pollProbe apart configured outline.stable_head).bind fun _ => ?_
  -- Once the search itself has asked, the same is known in both runs, also if the engine moves then.
  refine Tandem.bind ((tandem_mustLeave limitReached).and_left
    (outline.proceeds_mustLeave limitReached)) fun leaves => ?_
  cases leaves with
  | true =>
    refine Tandem.of_imp (R := Level c seat keeper allowed True fun r => ∃ answer, asked answer r) ?_
      fun _ _ h => ⟨h.1, h.2.imp fun _ h => h.imp fun _ => And.left⟩
    refine Tandem.bind (tandem_backtrack.and_left outline.proceeds_backtrack) fun moved => ?_
    cases moved with
    | true =>
      refine Tandem.bind (tandem_ascend.and_left outline.proceeds_ascend) fun _ => ?_
      refine Tandem.bind (S := fun _ => Level c seat keeper allowed True opened)
        (level_announce apart configured outline.stable_opened (by simp)) fun _ => ?_
      exact advances false
    | false => exact .pure fun _ _ h => ⟨h.1.relax, h.2⟩
  | false =>
    refine (advances limitReached).of_imp fun s t h => ⟨h.1, h.2.imp ?_⟩
    rintro r ⟨answer, told, stays⟩
    obtain rfl := stays rfl
    exact outline.stays r told

/-- All that a run does is done by the other. -/
theorem level_run (again : ∀ r, next r → head r)
    (recorded : ∀ r e, e.isMove = false → start r → start (r.record e))
    (begun : ∀ r, start r → head { r with matching := true, depth := 0 }) (budget : Nat) :
    Tandem (Level c seat keeper allowed True start) (DepthFirst.run budget) (DepthFirst.run budget)
      (fun _ => Beside c seat keeper False) (Beside c seat keeper False) := by
  have noted (e : Entry) (move : e.isMove = false) : Tandem (Level c seat keeper allowed True start)
      (change (Run.record e)) (change (Run.record e)) (fun _ => Level c seat keeper allowed True start)
      (Beside c seat keeper False) :=
    (tandem_change fun _ _ abreast => abreast.record e).and_left (Leads.change fun r => recorded r e move)
  have looped : Tandem (Level c seat keeper allowed False head)
      (loop (·.run.done) .terminated iterate budget false) (loop (·.run.done) .terminated iterate budget false)
      (fun _ => Level c seat keeper allowed False final) (Beside c seat keeper False) := by
    apply Tandem.loop fun _ => Level c seat keeper allowed False head
    · intro _ s t h
      obtain ⟨depths, query, tallies, journal, same⟩ := h.1.run.seen
      rw [same]
    · exact fun _ _ _ h => h.imp outline.stable_head.final
    · exact fun _ _ _ h => h.1
    · intro limitReached
      apply (outline.level_iterate apart impartial configured askable limitReached).imp
      intro turn s t h
      cases turn with
      | again _ => exact h.imp again
      | stop _ => exact h
  have launched : Tandem (Level c seat keeper allowed True start)
      (do change (Run.record (.launched "dfs")); change fun r : Run GraphEngine P => { r with matching := true })
      (do change (Run.record (.launched "dfs")); change fun r : Run GraphEngine P => { r with matching := true })
      (fun _ => Level c seat keeper allowed True fun r => head { r with depth := 0 })
      (Beside c seat keeper False) := by
    refine (noted _ rfl).bind fun _ => Tandem.and_left ?_ (Leads.change begun)
    exact tandem_alter (fun _ _ _ => rfl) fun _ => ⟨rfl, rfl⟩
  refine Tandem.bind (S := fun _ => Level c seat keeper allowed True fun r => head { r with depth := 0 }) ?_
    fun _ => ?_
  · refine (level_look fun _ _ _ _ _ => rfl).bind fun unguarded => ?_
    split
    · exact (noted .unguarded rfl).bind fun _ => launched
    · exact launched
  refine Tandem.bind (S := fun _ => Level c seat keeper allowed False final) ?_ fun reason => ?_
  · refine Tandem.bind (S := fun _ => Level c seat keeper allowed True head)
      (Tandem.and_left ?_ (Leads.change fun _ h => h)) fun _ => ?_
    · exact tandem_alter (fun _ _ _ => rfl) fun _ => ⟨rfl, rfl⟩
    refine (level_announce apart configured outline.stable_head (by simp)).bind fun _ => ?_
    refine Tandem.bind (looped.of_imp fun _ _ h => h.relax) fun reason => ?_
    refine (level_announce apart configured outline.stable_final (by simp)).bind fun _ => ?_
    exact .pure fun _ _ h => h
  · refine Tandem.bind (level_change outline.stable_final (fun _ _ _ _ _ => rfl)
      (fun _ => ⟨rfl, rfl, rfl, rfl, rfl⟩) fun r => .flags rfl rfl rfl rfl rfl rfl rfl) fun _ => ?_
    exact (tandem_look fun _ _ _ _ _ => rfl).of_imp fun _ _ h => h.1

end DepthFirst.Outline

/-! ## Every question is answered -/

theorem Run.askable_of_plain {P : Type} {r : Run GraphEngine P} (plain : r.config.matchByMinDepth = false) :
    ∃ result, r.inquire = .ok result := by
  cases asked : r.inquire with
  | ok result => exact ⟨result, rfl⟩
  | error f =>
    have byDepth := (byDepth_of_isNew_error (isNew_of_inquire_error asked)).2
    simp [plain] at byDepth

namespace DepthFirst

variable {P L : Type} {g : StateGraph} {total n : Nat} {r : Run GraphEngine P}

/-- A search that pays what it owes does not go deeper than the graph has states, and one that keeps its
    records has a depth for every state that is not new. -/
theorem Poised.askable (valid : g.validate = .ok ()) (small : g.size < 2 ^ 60)
    (h : Poised g total true (fun answer r => r.Arriving g total answer)
      (fun answer r => r.Solvent g total r.depths.find? answer) n r) (charted : r.Charted g) :
    ∃ result, r.inquire = .ok result := by
  obtain ⟨answer, -, ⟨unasked, arriving⟩ | ⟨cached, -⟩⟩ := h.due
  · -- Just entered: the state may be known, so that its frame is not counted among the live ones.
    obtain ⟨top, rest, frames⟩ := h.standing.wellFormed.exists_frames
    have live := arriving.solvent.paid.length_le
    have depth := Run.depth_of_frames h.standing frames
    have deep : r.depth ≤ g.size := by
      cases answer with
      | true =>
        rw [Run.liveFrames_true frames, List.length_cons] at live
        omega
      | false =>
        rw [Run.liveFrames_false frames] at live
        omega
    have inside := (h.standing.wellFormed.route frames).reachable.lt_size valid
    have isNew : r.engine.isNew = (r.depths.find? r.engine.current).isNone := by
      cases new : r.engine.isNew with
      | true => simp [arriving.unrecorded new]
      | false =>
        have recorded : (r.depths.find? r.engine.current).isSome = true :=
          (DepthTable.contains_eq ..).symm.trans (charted.traceable new)
        obtain ⟨d, found⟩ := Option.isSome_iff_exists.1 recorded
        simp [found]
    obtain ⟨depths, judged, -⟩ := LeastDepth.exists_judge h.standing.config isNew
      (LeastDepth.lt_capacity small inside) (succ_lt_wordLimit (by omega))
    have uncached : r.cachedAnswer? = none := by simp [Run.cachedAnswer?, unasked]
    rw [Run.inquire, if_pos h.standing.matching, uncached, judged]
    exact ⟨_, rfl⟩
  · exact ⟨_, Run.inquire_of_cached h.standing.matching cached⟩

variable [Checkable GraphEngine P] [Listener GraphEngine P L] {c : Company} {seat : Seat}
  {keeper allowed : L → Prop} {config : Config}

/-- Over a valid graph, a search in which a keeper sits does all that the search does without it. -/
theorem tandem_run (valid : g.validate = .ok ()) (small : config.matchByMinDepth = true → g.size < 2 ^ 60)
    (apart : Listener.Unobtrusive P c config allowed keeper) (impartial : Checkable.Impartial P c.tally)
    (budget : Nat) :
    Tandem (Search.Level c seat keeper allowed True fun r : Run GraphEngine P =>
        AtRest g config.matchByMinDepth r ∧ r.config = config)
      (DepthFirst.run budget) (DepthFirst.run budget) (fun _ => Search.Beside c seat keeper False)
      (Search.Beside c seat keeper False) := by
  cases byDepth : config.matchByMinDepth with
  | false =>
    refine (outline_configured config).level_run apart impartial (fun _ h => h) ?_ (fun _ h => h) ?_ ?_ budget
    · exact fun r configured => Run.askable_of_plain (by rw [configured, byDepth])
    · exact fun r e silent h => ⟨h.1.record silent, h.2⟩
    · exact fun r h => h.2
  | true =>
    -- The records tell which states can be asked for, and what is owed bounds the depth.
    have paying := Outline.of_index (@regime_byDepth P g ((g.size + 1) * Ledger.total g) valid).outline
    have outline := (outline_configured config).and ((outline_charted (g := g)).and paying)
    refine outline.level_run apart impartial (fun _ h => h.1) ?_ ?_ ?_ ?_ budget
    · rintro r ⟨-, charted, n, m, -, poised⟩
      exact poised.askable valid (small byDepth) charted
    · rintro r ⟨configured, charted, n, m, -, poised⟩
      exact ⟨configured, charted, m, poised⟩
    · exact fun r e silent h => ⟨h.1.record silent, h.2⟩
    · rintro r ⟨rest, configured⟩
      exact ⟨configured, .of_fresh rest.fresh rest.config rest.query, _, rest.poised (rest.arriving valid)⟩

end DepthFirst

/-! ## Bystanders leave a search alone -/

open Search

variable {P L B : Type}

/-- The search once a listener took a seat in it, with its tally among `tallies` and `journal` telling of
    it. -/
def Search.joinedBy (x : L) (seat : Seat) (tallies : List Tally) (journal : Journal)
    (s : Search GraphEngine P L) : Search GraphEngine P L :=
  { run := { s.run with tallies := tallies, journal := journal }
    listeners := seat.listeners x s.listeners
    reporter := seat.reporter x s.reporter }

/-- Keepers of a tally as company for a search, whose journal differs once one of them has joined. -/
def Search.company [Named L] (s : Search GraphEngine P L) (i : Nat) (keeper : L → Prop)
    (journal : Journal) : Company :=
  { tally := i
    isNamed := fun name => ∃ x, keeper x ∧ Named.name x = name
    before := s.run.journal.recent
    joined := journal.recent }

/-- What a property of a session is checked for is seen alike. -/
theorem Subject.impartial (i : Nat) : Checkable.Impartial Subject i := by
  intro r r' p alike
  obtain ⟨depths, query, tallies, journal, rfl⟩ := alike.seen
  cases p with
  | predicate name condition => cases condition <;> rfl
  | _ => rfl

theorem zoom_eq_resultOf {σ τ ρ α : Type} {wrap : σ → τ} {part part' : σ} {rest rest' : ρ}
    {x : EStateM Failure (σ × ρ) α} {verdict : Except Failure α}
    (h : x (part, rest) = resultOf verdict (part', rest')) :
    zoom wrap part x rest = resultOf verdict (wrap part', rest') := by
  rw [zoom, h]
  cases verdict <;> rfl

namespace Observer

/-- A listener that keeps statistics, does nothing, or follows modest rules. -/
def isModest : Observer → Prop
  | .statistics _ => True
  | .idle _ => True
  | .rules l => l.isModest
  | .reporter _ => False

theorem wraps_statistics {E : Type} [Engine E] : Listener.Wraps E Subject Observer.statistics :=
  fun _ _ _ => rfl

theorem impartial (i : Nat) : Listener.Impartial Subject i isModest := by
  intro event l r r' modest alike
  cases l with
  | statistics l =>
    obtain ⟨requests, verdict, l', -, heard, heard'⟩ := Statistics.impartial i event l r r' trivial alike
    exact ⟨requests, verdict, .statistics l', trivial, zoom_eq_resultOf heard, zoom_eq_resultOf heard'⟩
  | idle name =>
    have idle : Listener.Impartial Subject i (· = Observer.idle name) := by
      apply Listener.Impartial.of_position (fun _ _ _ _ => []) (fun _ _ _ _ => .ok ()) fun _ l _ _ => l
      rintro event _ r rfl
      exact ⟨rfl, rfl⟩
    obtain ⟨requests, verdict, l', rfl, heard, heard'⟩ := idle event _ r r' rfl alike
    exact ⟨requests, verdict, .idle name, trivial, heard, heard'⟩
  | rules l =>
    obtain ⟨requests, verdict, l', modest', heard, heard'⟩ := RuleListener.impartial i event l r r' modest alike
    exact ⟨requests, verdict, .rules l', modest', zoom_eq_resultOf heard, zoom_eq_resultOf heard'⟩
  | reporter m => cases modest

end Observer

/-- Whether statistics are kept makes no difference to a depth-first search over a valid graph, with its
    edges in any order, with any configuration and memory, with properties and other listeners that are
    impartial.  Nor does a reporter without publishers and timer.  Wherever the bystander sits, the run
    ends in the same way, with the same outcome or failure, and with the same engine and violations.  The
    two journals tell of the same moves, announcements, calls and remarks in the same order, but for the
    calls of the bystander.  A search that matches by least depth needs room in its table for all states. -/
theorem bystander_leaves_search_alone [Checkable GraphEngine P] [Publisher GraphEngine P B]
    [Listener GraphEngine P L] {g : StateGraph} (valid : g.validate = .ok ())
    {statistics : Statistics → L} {reporter : Reporter B → L}
    (counts : Listener.Wraps GraphEngine P statistics) (reports : Listener.Wraps GraphEngine P reporter)
    {i : Nat} {allowed : L → Prop} (properties : Checkable.Impartial P i)
    (others : Listener.Impartial P i allowed) {s : Search GraphEngine P L}
    (small : s.run.config.matchByMinDepth = true → g.size < 2 ^ 60)
    (heeded : s.Heeded allowed (DepthFirst.AtRest g s.run.config.matchByMinDepth))
    {x : L} (bystander : Bystander i s.run.config statistics reporter x) (seat : Seat)
    (free : seat = .last → s.reporter = none) (tallies : List Tally)
    (kept : ∀ j, j ≠ i → tallies[j]? = s.run.tallies[j]?) (journal : Journal) (budget : Nat) :
    let keeper := Bystander i s.run.config statistics reporter
    let beside := Beside (s.company i keeper journal) seat keeper False
    Matched (fun _ => beside) beside (DepthFirst.run budget s)
      (DepthFirst.run budget (s.joinedBy x seat tallies journal)) := by
  intro keeper beside
  have apart : Listener.Unobtrusive P (s.company i keeper journal) s.run.config allowed keeper :=
    ⟨others, Bystander.keepsTally counts reports i s.run.config, fun y hy => ⟨y, hy, rfl⟩⟩
  have level : s.Level (s.company i keeper journal) seat keeper allowed True
      (fun r => DepthFirst.AtRest g s.run.config.matchByMinDepth r ∧ r.config = s.run.config)
      (s.joinedBy x seat tallies journal) :=
    ⟨⟨free, ⟨x, bystander, rfl, rfl⟩, .of_tallies kept .start⟩,
      heeded.listeners, heeded.reporter, heeded.run, rfl⟩
  exact DepthFirst.tandem_run valid small apart properties budget s _ level

/-- A listener that asks when the search has stepped back, and requests progress events. -/
def doubter : RuleListener Subject :=
  { name := "doubter"
    rules := [
      { event := .stateBacktracked, deed := .act "is_new" .isNew },
      { event := .stateProcessed, deed := .act "request_probe" .requestProbe }] }

theorem doubter_isModest : doubter.isModest := by
  simp [RuleListener.isModest, doubter, Deed.isModest, Action.isModest, Action.isMild]

/-- Both ways into the middle of the graph are taken, the shorter one last: five times a state is entered
    that the statistics call new, or the reporter. -/
theorem shortcut_search_left_alone : ∃ e s, GraphEngine.ofGraph .shortcut = .ok e ∧
    Search.ofEngine e { matchByMinDepth := true, continueOnViolation := true } = .ok s ∧
    let guarded := s.addProperty (.forbidden { states := [3] })
    let alone := guarded.addListener (.rules doubter)
    let observed := guarded.observed.addListener (.rules doubter)
    let reported := alone.joinedBy (.reporter { tally := 0 }) .last [{}] alone.run.journal
    let keeper := Bystander 0 alone.run.config Observer.statistics Observer.reporter
    ∃ o t, DepthFirst.run 60 alone = .ok o t ∧ o.errors = 2 ∧
      (∃ t', DepthFirst.run 60 observed = .ok o t' ∧ (t'.run.tally 0).newStates = 5 ∧
        t.Beside (alone.company 0 keeper observed.run.journal) (.among 0) keeper False t') ∧
      ∃ t', DepthFirst.run 60 reported = .ok o t' ∧ (t'.run.tally 0).newStates = 5 ∧
        t.Beside (alone.company 0 keeper alone.run.journal) .last keeper False t' := by
  refine ⟨_, .fresh _ { matchByMinDepth := true, continueOnViolation := true }, rfl, rfl, ?_⟩
  intro guarded alone observed reported keeper
  have heeded : alone.Heeded Observer.isModest (DepthFirst.AtRest .shortcut true) := by
    refine ⟨?_, ?_, rfl, GraphEngine.fresh_ofGraph (g := .shortcut) rfl, rfl, rfl, rfl⟩
    · have eq : alone.listeners = [.rules doubter] := rfl
      simpa [eq, Observer.isModest] using doubter_isModest
    · intro l member
      cases member
  have ended : ∃ o t, DepthFirst.run 60 alone = .ok o t ∧ o.errors = 2 := exists_ok_of_check (by decide +kernel)
  have counted : ∃ o t, DepthFirst.run 60 observed = .ok o t ∧ (t.run.tally 0).newStates = 5 :=
    exists_ok_of_check (by decide +kernel)
  have reckoned : ∃ o t, DepthFirst.run 60 reported = .ok o t ∧ (t.run.tally 0).newStates = 5 :=
    exists_ok_of_check (by decide +kernel)
  obtain ⟨o, t, done, errors⟩ := ended
  have kept (j : Nat) (other : j ≠ 0) : [({} : Tally)][j]? = alone.run.tallies[j]? := by
    have eq : alone.run.tallies = [] := rfl
    rw [eq, List.getElem?_eq_none_iff.2 (Nat.one_le_iff_ne_zero.2 other), List.getElem?_nil]
  have leaves {x : Observer} (bystander : keeper x) (seat : Seat) (journal : Journal) :=
    bystander_leaves_search_alone (P := Subject) (B := Outlet) (s := alone) rfl
      Observer.wraps_statistics Observer.wraps_reporter (Subject.impartial 0) (Observer.impartial 0)
      (fun _ => by decide) heeded bystander seat (fun _ => rfl) [{}] kept journal 60
  rw [done] at leaves
  refine ⟨o, t, done, errors, ?_, ?_⟩
  · obtain ⟨o', t', ran, states⟩ := counted
    obtain ⟨t'', same, beside⟩ := (leaves .statistics (.among 0) observed.run.journal).exists_ok
    have joined : observed = alone.joinedBy (.statistics { tally := 0 }) (.among 0) [{}] observed.run.journal := rfl
    rw [← joined, ran] at same
    cases same
    exact ⟨t', ran, states, beside⟩
  · obtain ⟨o', t', ran, states⟩ := reckoned
    obtain ⟨t'', same, beside⟩ :=
      (leaves (.reporter { tally := 0 } rfl rfl rfl rfl) .last alone.run.journal).exists_ok
    cases ran.symm.trans same
    exact ⟨t', ran, states, beside⟩

end Statewalk
