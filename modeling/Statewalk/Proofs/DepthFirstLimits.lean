import Statewalk.Proofs.Monitors

/-! # The depth limit of depth-first search

Depth-first search never goes beyond its depth limit.  Whenever it reaches the limit it says so before the
iteration is over, unless the iteration ends the search with a violation; it says so at no other time, and
the next thing it does with its engine is to step back.  All this is read off the journal by one monitor,
for any engine, any properties and any restrained listeners.
-/

namespace Statewalk

/-! ## Entries -/

namespace Entry

/-- The entry announces that the depth limit was reached. -/
def tellsLimit (limit : Nat) : Entry → Bool
  | .announced b =>
    b.event = .searchConstraintHit ∧ b.constraint = some ("depth limit reached: " ++ toString limit)
  | _ => false

/-- The iteration of a step forward is over at this entry: the engine is told to move once more, progress is
    announced, or the search comes to its end. -/
def endsTurn : Entry → Bool
  | .moved .. => true
  | .announced b => b.event = .searchProbed ∨ b.event = .searchFinished
  | _ => false

end Entry

/-! ## The monitor -/

/-- Where a search stands with respect to its depth limit. -/
inductive LimitStand where
  /-- Nothing is due. -/
  | roaming
  /-- A step forward was announced, which has reached the limit or not. -/
  | arrived (atLimit : Bool)
  /-- The limit was announced, and the engine has not moved since. -/
  | limited
deriving DecidableEq

/-- Where a search stands, and whether its end was announced. -/
structure LimitWatch where
  stand : LimitStand := .roaming
  ended : Bool := false
deriving DecidableEq

namespace LimitWatch

/-- The engine is told to move at some depth: forward only below the limit, and back if the limit was
    announced. -/
def onMove (limit depth : Nat) (w : LimitWatch) : Move → Option LimitWatch
  | .forward =>
    if w.ended = false ∧ depth < limit ∧ (w.stand = .roaming ∨ w.stand = .arrived false) then some {} else none
  | .backtrack => if w.ended = false ∧ w.stand ≠ .arrived true then some {} else none
  | .restore => none

/-- An event is announced: never beyond the limit.  The limit is announced when it was reached and only
    then, and before any progress. -/
def onBulletin (limit : Nat) (b : Bulletin) (w : LimitWatch) : Option LimitWatch :=
  if w.ended = true ∨ limit < b.depth then none
  else if b.event = .stateAdvanced then
    if w.stand = .roaming then some { stand := .arrived (b.depth = limit) } else none
  else if (Entry.announced b).tellsLimit limit then
    if w.stand = .arrived true then some { stand := .limited } else none
  else if b.event = .searchProbed then
    if w.stand = .arrived true then none else some w
  else if b.event = .searchFinished then some { w with ended := true }
  else some w

end LimitWatch

/-- Watches over a depth limit. -/
def Monitor.depthLimit (limit : Nat) : Monitor LimitWatch where
  start := {}
  read w
    | .moved move depth _ => w.onMove limit depth move
    | .announced b => w.onBulletin limit b
    | _ => some w
  aside w e aside := by cases e <;> first | rfl | cases aside
  chore w e chore := by cases e <;> first | rfl | cases chore
  crossed _ _ _ _ := rfl

namespace Monitor

variable {limit : Nat} {w w' : LimitWatch} {e : Entry} {es : List Entry}

/-! ### What the monitor accepts -/

theorem depth_le_of_read {b : Bulletin} (h : (depthLimit limit).read w (.announced b) = some w') :
    w.ended = false ∧ b.depth ≤ limit := by
  by_cases refused : w.ended = true ∨ limit < b.depth
  · simp [depthLimit, LimitWatch.onBulletin, refused] at h
  · simp only [not_or, Bool.not_eq_true] at refused
    exact ⟨refused.1, by omega⟩

theorem depth_lt_of_read {d : Nat} {done : Bool}
    (h : (depthLimit limit).read w (.moved .forward d done) = some w') : d < limit := by
  simp only [depthLimit, LimitWatch.onMove] at h
  split_ifs at h with below
  exact below.2.1

/-- Once the end was announced nothing happens any more. -/
theorem read_ended (ended : w.ended = true) (h : (depthLimit limit).read w e = some w') :
    e.move? = none ∧ w' = w := by
  cases e with
  | moved move depth done => cases move <;> simp [depthLimit, LimitWatch.onMove, ended] at h
  | announced b => simp [depthLimit, LimitWatch.onBulletin, ended] at h
  | _ => exact ⟨rfl, (Option.some.inj h).symm⟩

/-- What an announcement that is accepted comes to. -/
theorem read_announced {b : Bulletin} (h : (depthLimit limit).read w (.announced b) = some w') :
    (b.event = .stateAdvanced ∧ w.stand = .roaming ∧ w' = { stand := .arrived (b.depth = limit) }) ∨
      ((Entry.announced b).tellsLimit limit = true ∧ (Entry.announced b).endsTurn = false ∧
        w.stand = .arrived true ∧ w' = { stand := .limited }) ∨
      ((Entry.announced b).tellsLimit limit = false ∧ (Entry.announced b).endsTurn = true ∧
        w'.stand = w.stand ∧ (w.stand = .arrived true → w'.ended = true)) ∨
      (b.event ≠ .stateAdvanced ∧ (Entry.announced b).tellsLimit limit = false ∧
        (Entry.announced b).endsTurn = false ∧ w' = w) := by
  simp only [depthLimit, LimitWatch.onBulletin] at h
  -- One case for each branch that accepts; the last three leave the stand alone.
  split_ifs at h with _ advanced roaming told arrived probed _ finished
  · exact .inl ⟨advanced, roaming, (Option.some.inj h).symm⟩
  · refine .inr (.inl ⟨told, ?_, arrived, (Option.some.inj h).symm⟩)
    simp only [Entry.tellsLimit, decide_eq_true_eq] at told
    simp [Entry.endsTurn, told.1]
  all_goals
    obtain rfl := Option.some.inj h
    simp only [Bool.not_eq_true] at told
  · exact .inr (.inr (.inl ⟨told, by simp [Entry.endsTurn, probed], rfl, by simp_all⟩))
  · exact .inr (.inr (.inl ⟨told, by simp [Entry.endsTurn, finished], rfl, fun _ => rfl⟩))
  · exact .inr (.inr (.inr ⟨advanced, told, by simp [Entry.endsTurn, probed, finished], rfl⟩))

/-- At the limit, the limit is announced or the search ends; nothing else that counts happens. -/
theorem read_atLimit (h : (depthLimit limit).read { stand := .arrived true } e = some w') :
    e.move? = none ∧ ((e.tellsLimit limit = true ∧ e.endsTurn = false ∧ w' = { stand := .limited }) ∨
      (e.tellsLimit limit = false ∧ e.endsTurn = false ∧ w' = { stand := .arrived true }) ∨
      (e.endsTurn = true ∧ w' = { stand := .arrived true, ended := true })) := by
  cases e with
  | moved move depth done => cases move <;> simp [depthLimit, LimitWatch.onMove] at h
  | announced b =>
    refine ⟨rfl, ?_⟩
    rcases read_announced h with
      ⟨-, roaming, -⟩ | ⟨told, going, -, rfl⟩ | ⟨-, ended, stand, finished⟩ | ⟨-, silent, going, rfl⟩
    · cases roaming
    · exact .inl ⟨told, going, rfl⟩
    · cases w'
      simp_all
    · exact .inr (.inl ⟨silent, going, rfl⟩)
  | _ => exact ⟨rfl, .inr (.inl ⟨rfl, rfl, (Option.some.inj h).symm⟩)⟩

/-- Below the limit it is not announced before the iteration is over. -/
theorem read_belowLimit (h : (depthLimit limit).read { stand := .arrived false } e = some w') :
    e.endsTurn = true ∨ (e.tellsLimit limit = false ∧ w' = { stand := .arrived false }) := by
  cases e with
  | moved move depth done => exact .inl rfl
  | announced b =>
    rcases read_announced h with ⟨-, roaming, -⟩ | ⟨-, -, arrived, -⟩ | ⟨-, ended, -⟩ | ⟨-, silent, -, rfl⟩
    · cases roaming
    · cases arrived
    · exact .inl ended
    · exact .inr ⟨silent, rfl⟩
  | _ => exact .inr ⟨rfl, (Option.some.inj h).symm⟩

/-- After the limit was announced, the engine is told to step back if it is told to move. -/
theorem read_limited (limited : w.stand = .limited) (h : (depthLimit limit).read w e = some w') :
    e.move? = some .backtrack ∨ (e.move? = none ∧ w'.stand = .limited) := by
  cases e with
  | moved move depth done =>
    cases move with
    | backtrack => exact .inl rfl
    | _ => simp [depthLimit, LimitWatch.onMove, limited] at h
  | announced b =>
    refine .inr ⟨rfl, ?_⟩
    rcases read_announced h with ⟨-, roaming, -⟩ | ⟨-, -, -, rfl⟩ | ⟨-, -, stand, -⟩ | ⟨-, -, -, rfl⟩
    · rw [limited] at roaming
      cases roaming
    · rfl
    · rw [stand, limited]
    · exact limited
  | _ => exact .inr ⟨rfl, Option.some.inj h ▸ limited⟩

/-- The limit is announced only where it was reached. -/
theorem read_tellsLimit (told : e.tellsLimit limit = true) (h : (depthLimit limit).read w e = some w') :
    w' = { stand := .limited } := by
  cases e with
  | announced b =>
    rcases read_announced h with ⟨advanced, -⟩ | ⟨-, -, -, rfl⟩ | ⟨silent, -⟩ | ⟨-, silent, -⟩
    · simp [Entry.tellsLimit, advanced] at told
    · rfl
    · rw [told] at silent
      cases silent
    · rw [told] at silent
      cases silent
  | _ => cases told

/-! ### What it accepts in a row -/

theorem reads_ended (ended : w.ended = true) (h : (depthLimit limit).reads w es = some w') :
    es.filterMap Entry.move? = [] ∧ w' = w := by
  induction es with
  | nil => exact ⟨rfl, (Option.some.inj h).symm⟩
  | cons e es ih =>
    obtain ⟨ψ, first, rest⟩ := reads_cons h
    obtain ⟨still, rfl⟩ := read_ended ended first
    simpa [still] using ih rest

theorem reads_limited (limited : w.stand = .limited) (h : (depthLimit limit).reads w es = some w') :
    (∀ move ∈ (es.filterMap Entry.move?).head?, move = .backtrack) ∧
      (es.filterMap Entry.move? = [] → w'.stand = .limited) := by
  induction es generalizing w with
  | nil => simp_all [reads]
  | cons e es ih =>
    obtain ⟨ψ, first, rest⟩ := reads_cons h
    cases read_limited limited first with
    | inl back => simp [back]
    | inr still => simpa [still.1] using ih still.2 rest

/-- Since the limit was reached it was announced in time, or the search ended there. -/
theorem reads_atLimit (h : (depthLimit limit).reads { stand := .arrived true } es = some w') :
    ((∃ e ∈ es.takeWhile (!·.endsTurn), e.tellsLimit limit = true) ∧
        (es.filterMap Entry.move? = [] → w'.stand = .limited)) ∨
      ((∀ e ∈ es.takeWhile (!·.endsTurn), e.tellsLimit limit = false) ∧
        es.filterMap Entry.move? = [] ∧ w'.stand = .arrived true) := by
  induction es with
  | nil =>
    cases h
    simp
  | cons e es ih =>
    obtain ⟨ψ, first, rest⟩ := reads_cons h
    obtain ⟨still, ⟨told, going, rfl⟩ | ⟨silent, going, rfl⟩ | ⟨ended, rfl⟩⟩ := read_atLimit first
    · -- The announcement is in time, and what comes after it is settled by `reads_limited`.
      refine .inl ⟨⟨e, by simp [going], told⟩, ?_⟩
      simpa [still] using (reads_limited rfl rest).2
    · simpa [List.takeWhile_cons, going, silent, still] using ih rest
    · obtain ⟨quiet, rfl⟩ := reads_ended rfl rest
      exact .inr ⟨by simp [ended], by simpa [still] using quiet, rfl⟩

theorem reads_belowLimit (h : (depthLimit limit).reads { stand := .arrived false } es = some w') :
    ∀ e ∈ es.takeWhile (!·.endsTurn), e.tellsLimit limit = false := by
  induction es with
  | nil => simp
  | cons e es ih =>
    obtain ⟨ψ, first, rest⟩ := reads_cons h
    cases read_belowLimit first with
    | inl ended => simp [ended]
    | inr going =>
      obtain ⟨silent, rfl⟩ := going
      by_cases ended : e.endsTurn = true
      · simp [ended]
      · simpa [List.takeWhile_cons, ended, silent] using ih rest

end Monitor

/-! ## Depth-first search -/

namespace DepthFirst

open Search

variable {E P L : Type} {allowed : L → Prop} {c : Config} {j : Journal} {stands : LimitStand → Nat → Prop}

/-- The search is under way with a configuration, and where it stands goes with its depth. -/
structure Keeping (c : Config) (stands : LimitStand → Nat → Prop) (w : LimitWatch) (r : Run E P) : Prop where
  config : r.config = c
  going : w.ended = false
  stands : stands w.stand r.depth

theorem aloof_keeping (c : Config) (stands : LimitStand → Nat → Prop) :
    Aloof (Keeping (E := E) (P := P) c stands) := by
  intro w r r' h persists
  exact ⟨persists.config.trans h.config, h.going, persists.depth ▸ h.stands⟩

/-- Below the limit, before a step. -/
def Below (limit : Nat) (stand : LimitStand) (d : Nat) : Prop :=
  d < limit ∧ (stand = .roaming ∨ stand = .arrived false)

/-- Before an iteration: at the limit, which was announced, or below it. -/
def Heading (limit : Nat) : Bool → LimitStand → Nat → Prop
  | true, stand, d => d = limit ∧ stand = .limited
  | false, stand, d => Below limit stand d

/-- After a move, not beyond the limit. -/
def Roaming (limit : Nat) (stand : LimitStand) (d : Nat) : Prop :=
  d ≤ limit ∧ stand = .roaming

/-- After a step forward was announced. -/
def Arrived (limit : Nat) (stand : LimitStand) (d : Nat) : Prop :=
  d ≤ limit ∧ stand = .arrived (d = limit)

/-- At the end: a step that reached the limit without saying so was the last one and ended with a violation. -/
def Ending (limit : Nat) (reason : StopReason) (stand : LimitStand) (d : Nat) : Prop :=
  d ≤ limit ∧ (reason = .propertyViolated → ∃ atLimit, stand = .arrived atLimit) ∧
    (stand = .arrived true → reason = .propertyViolated)

theorem Heading.le {limit d : Nat} {limitReached : Bool} {stand : LimitStand}
    (h : Heading limit limitReached stand d) : d ≤ limit ∧ stand ≠ .arrived true := by
  cases limitReached with
  | true => simp [h.1, h.2]
  | false => exact ⟨h.1.le, by rcases h.2 with rfl | rfl <;> simp⟩

/-- The operation keeps to the limit, and leads from where `stands` says to where `stands'` says. -/
abbrev KeepsLimit {α : Type} (allowed : L → Prop) (c : Config) (j : Journal) (stands : LimitStand → Nat → Prop)
    (x : SearchM E P L α) (stands' : α → LimitStand → Nat → Prop) : Prop :=
  Accords allowed (.depthLimit c.depthLimit) j (Keeping c stands) x fun a => Keeping c (stands' a)

section Moves

variable [Engine E]

/-- Stepping back, or trying to, settles everything. -/
theorem keepsLimit_backtrack {limitReached : Bool} :
    KeepsLimit allowed c j (Heading c.depthLimit limitReached) (backtrack (E := E) (P := P) (L := L))
      fun _ => Roaming c.depthLimit := by
  apply Accords.bind (accords_adjust (f := Run.forgetQuery) (aloof_keeping _ _)
    (fun _ => ⟨rfl, rfl, rfl, rfl, id⟩) fun _ => rfl)
  intro _
  apply Accords.update
  intro w r h
  have le := h.stands.le
  refine ⟨{}, .record ?_, h.config, rfl, le.1, rfl⟩
  simp [Monitor.depthLimit, LimitWatch.onMove, h.going, le.2]

omit [Engine E] in
theorem keepsLimit_ascend :
    KeepsLimit allowed c j (Roaming c.depthLimit) (onRun (E := E) (P := P) (L := L) Run.ascend)
      fun _ => Below c.depthLimit := by
  apply Accords.onRun
  intro w r h
  rw [Run.ascend_apply]
  by_cases root : r.depth = 0
  · simp only [root, if_true]
  · have le := h.stands.1
    simp only [root, if_false]
    refine ⟨w, .of_eq rfl, h.config, h.going, ?_, .inl h.stands.2⟩
    simp only
    omega

/-- The engine goes forward from below the limit. -/
theorem keepsLimit_forward [Checkable E P] :
    KeepsLimit allowed c j (Below c.depthLimit) (forward (E := E) (P := P) (L := L))
      fun _ stand d => d < c.depthLimit ∧ stand = .roaming := by
  have started : KeepsLimit allowed c j (Below c.depthLimit)
      (change (E := E) (P := P) (L := L) fun r => { r with atViolation := false, lastQuery := none })
      fun _ => Below c.depthLimit :=
    .change_silent (fun _ => rfl) fun w r h => ⟨h.config, h.going, h.stands⟩
  apply started.bind
  intro _
  apply Accords.bind (K := fun _ => Keeping c fun stand d => d < c.depthLimit ∧ stand = .roaming)
  · apply Accords.update
    intro w r h
    refine ⟨{}, .stepForward ?_, ?_⟩
    · simp [Monitor.depthLimit, LimitWatch.onMove, h.going, h.stands.1, h.stands.2]
    · rw [Run.stepForward_eq]
      exact ⟨h.config, rfl, h.stands.1, rfl⟩
  intro advanced
  apply Accords.bind (K := fun _ => Keeping c fun stand d => d < c.depthLimit ∧ stand = .roaming)
  · apply Accords.update
    intro w r h
    obtain ⟨properties, held⟩ | ⟨properties, _, -, broken⟩ := Run.checkProperties_outcome r
    · rw [held]
      exact ⟨w, .of_eq rfl, h.config, h.going, h.stands⟩
    · rw [broken]
      exact ⟨w, .record rfl, h.config, h.going, h.stands⟩
  exact fun _ => .pure fun _ _ h => h

omit [Engine E] in
theorem keepsLimit_descend :
    KeepsLimit allowed c j (fun stand d => d < c.depthLimit ∧ stand = .roaming)
      (onRun (E := E) (P := P) (L := L) Run.descend) fun _ => Roaming c.depthLimit := by
  apply Accords.onRun
  intro w r h
  rw [Run.descend_apply]
  cases sum : addWords r.depth 1 with
  | error f => rfl
  | ok d =>
    have below := h.stands.1
    have deeper := addWords_eq_ok.1 sum
    refine ⟨w, .of_eq rfl, h.config, h.going, ?_, h.stands.2⟩
    simp only
    omega

/-- A state at the limit is left. -/
theorem keepsLimit_mustLeave {limitReached : Bool} :
    KeepsLimit allowed c j (Heading c.depthLimit limitReached)
      (mustLeave (E := E) (P := P) (L := L) limitReached)
      fun leave stand d => (limitReached = true → leave = true) ∧ Heading c.depthLimit limitReached stand d := by
  have aloof := aloof_keeping (E := E) (P := P) c (Heading c.depthLimit limitReached)
  apply Accords.bind (accords_isNew aloof)
  intro isNew
  apply Accords.bind (accords_idle (f := Run.takeBacktrackRequest) aloof (fun _ => ⟨rfl, rfl, rfl, rfl, id⟩)
    fun _ _ => .of_eq rfl)
  intro requested
  apply Accords.bind .glance
  intro engine
  apply Accords.pure
  intro w r h
  exact ⟨h.config, h.going, by simp +contextual, h.stands⟩

end Moves

section Announcements

variable [Engine E] [Listener E P L] (restrained : Listener.Restrained (fun _ : Run E P => True) allowed)

include restrained

omit restrained in
/-- The monitor has nothing to say about most announcements. -/
theorem read_plain (le : ∀ stand d, stands stand d → d ≤ c.depthLimit) {event : Event}
    (plain : event ≠ .stateAdvanced ∧ event ≠ .searchConstraintHit ∧ event ≠ .searchProbed ∧
      event ≠ .searchFinished) (w : LimitWatch) (r : Run E P) (n : Nat) (h : Keeping c stands w r) :
    ∃ w', (Monitor.depthLimit c.depthLimit).read w (.announced (r.bulletin n event)) = some w' ∧
      Keeping c stands w' r := by
  have shallow := le _ _ h.stands
  have heard : (r.bulletin n event).event = event := rfl
  have depth : (r.bulletin n event).depth = r.depth := rfl
  refine ⟨w, ?_, h⟩
  simp [Monitor.depthLimit, LimitWatch.onBulletin, Entry.tellsLimit, h.going, Nat.not_lt.2 shallow, heard,
    depth, plain]

theorem keepsLimit_announce (le : ∀ stand d, stands stand d → d ≤ c.depthLimit) {event : Event}
    (plain : event ≠ .stateAdvanced ∧ event ≠ .searchConstraintHit ∧ event ≠ .searchProbed ∧
      event ≠ .searchFinished) :
    KeepsLimit allowed c j stands (announce (E := E) (P := P) (L := L) event) fun _ => stands :=
  accords_announce restrained (aloof_keeping c stands) (read_plain le plain)

theorem keepsLimit_advanced :
    KeepsLimit allowed c j (Roaming c.depthLimit) (announce (E := E) (P := P) (L := L) .stateAdvanced)
      fun _ => Arrived c.depthLimit := by
  apply accords_announce restrained (aloof_keeping c _)
  intro w r n h
  refine ⟨{ stand := .arrived (r.depth = c.depthLimit) }, ?_, h.config, rfl, h.stands.1, rfl⟩
  simp [Monitor.depthLimit, LimitWatch.onBulletin, Run.bulletin, h.going, Nat.not_lt.2 h.stands.1, h.stands.2]

theorem keepsLimit_pollProbe {limitReached : Bool} :
    KeepsLimit allowed c j (Heading c.depthLimit limitReached) (pollProbe (E := E) (P := P) (L := L))
      fun _ => Heading c.depthLimit limitReached := by
  apply accords_pollProbe restrained (aloof_keeping c _) (aloof_keeping c _)
  · intro w r n h
    have le := h.stands.le
    refine ⟨w, ?_, h⟩
    simp [Monitor.depthLimit, LimitWatch.onBulletin, Entry.tellsLimit, Run.bulletin, h.going,
      Nat.not_lt.2 le.1, le.2]
  · exact fun _ _ h => h

/-- A violation is announced without saying anything about the limit. -/
theorem keepsLimit_settleViolation [Property P] :
    KeepsLimit allowed c j (Arrived c.depthLimit) (settleViolation (E := E) (P := P) (L := L))
      fun _ => Arrived c.depthLimit := by
  have aloof := aloof_keeping (E := E) (P := P) c (Arrived c.depthLimit)
  apply Accords.bind .glance
  intro violated
  split
  · apply Accords.bind (accords_announceViolation restrained aloof (read_plain (fun _ _ h => h.1) (by simp)))
    intro _
    exact accords_idle aloof Run.persists_endsAtViolation fun w r => .chore (.endsAtViolation r) w
  · exact .pure fun _ _ h => h

/-- The announcement of a limit, of this one or of another. -/
theorem keepsLimit_announceConstraint (details : String) {stands' : LimitStand → Nat → Prop}
    (h : ∀ stand d, stands stand d → d ≤ c.depthLimit ∧
      if details = "depth limit reached: " ++ toString c.depthLimit then
        stand = .arrived true ∧ stands' .limited d
      else stands' stand d) :
    KeepsLimit allowed c j stands (announceConstraint (E := E) (P := P) (L := L) details) fun _ => stands' := by
  have noted : Accords allowed (.depthLimit c.depthLimit) j (Keeping c stands)
      (change (E := E) (P := P) (L := L) fun r => { r with lastConstraint := some details })
      fun _ w r => Keeping c stands w r ∧ r.lastConstraint = some details :=
    .change_silent (fun _ => rfl) fun w r h => ⟨⟨h.config, h.going, h.stands⟩, rfl⟩
  apply noted.bind
  intro _
  apply accords_announce restrained (aloof_keeping c _)
  rintro w r n ⟨at_, constraint⟩
  obtain ⟨shallow, next⟩ := h _ _ at_.stands
  have told : (Entry.announced (r.bulletin n .searchConstraintHit)).tellsLimit c.depthLimit =
      decide (details = "depth limit reached: " ++ toString c.depthLimit) := by
    simp [Entry.tellsLimit, Run.bulletin, constraint]
  have event : (r.bulletin n .searchConstraintHit).event = .searchConstraintHit := rfl
  have depth : (r.bulletin n .searchConstraintHit).depth = r.depth := rfl
  by_cases same : details = "depth limit reached: " ++ toString c.depthLimit
  · rw [decide_eq_true same] at told
    rw [if_pos same] at next
    refine ⟨{ stand := .limited }, ?_, at_.config, rfl, next.2⟩
    simp [Monitor.depthLimit, LimitWatch.onBulletin, event, depth, told, at_.going, Nat.not_lt.2 shallow, next.1]
  · rw [decide_eq_false same] at told
    rw [if_neg same] at next
    refine ⟨w, ?_, at_.config, at_.going, next⟩
    simp [Monitor.depthLimit, LimitWatch.onBulletin, event, depth, told, at_.going, Nat.not_lt.2 shallow]

end Announcements

/-! ### A run -/

section Run

variable [Engine E] [Checkable E P] [Listener E P L]
  (restrained : Listener.Restrained (fun _ : Run E P => True) allowed)

include restrained

/-- What an iteration leads to. -/
abbrev Turning (limit : Nat) (turn : Turn Bool StopReason) (stand : LimitStand) (d : Nat) : Prop :=
  match turn with
  | .again limitReached => Heading limit limitReached stand d
  | .stop reason => Ending limit reason stand d

omit [Engine E] [Checkable E P] [Listener E P L] restrained in
theorem memoryLimit_ne_depthLimit (text : String) (limit : Nat) :
    "memory limit reached: " ++ text ≠ "depth limit reached: " ++ toString limit := by
  intro same
  have first := congrArg (·.toList.head?) same
  simp at first

omit [Checkable E P] in
/-- The limit is announced if it was reached, and the next iteration knows of it. -/
theorem keepsLimit_checkLimits :
    KeepsLimit allowed c j (Arrived c.depthLimit) (checkLimits (E := E) (P := P) (L := L) false)
      (Turning c.depthLimit) := by
  apply Accords.bind .look
  intro limit
  apply Accords.bind .look
  intro depth
  -- What was looked at is the limit of the configuration and the depth where the search stands.
  apply Accords.of_imp (J := fun w r => limit = c.depthLimit ∧
    Keeping c (fun stand d => d = depth ∧ Arrived c.depthLimit stand d) w r)
  · apply Accords.of_known
    rintro rfl
    split
    · rename_i reached
      apply Accords.bind (K := fun _ => Keeping c (Heading c.depthLimit true))
      · apply keepsLimit_announceConstraint restrained
        rintro stand d ⟨rfl, le, rfl⟩
        have at_ : d = c.depthLimit := by omega
        simp [at_, Heading]
      · exact fun _ => .pure fun _ _ h => h
    · rename_i below
      have here (stand : LimitStand) (d : Nat) (h : d = depth ∧ Arrived c.depthLimit stand d) :
          d < c.depthLimit ∧ stand = .arrived false := by
        obtain ⟨rfl, le, rfl⟩ := h
        exact ⟨by omega, by simp; omega⟩
      apply Accords.bind (accords_hasMemory (aloof_keeping c _))
      intro enough
      split
      · apply Accords.pure
        intro w r h
        have arrived := here _ _ h.stands
        exact ⟨h.config, h.going, arrived.1, .inr arrived.2⟩
      · apply Accords.bind (K := fun _ => Keeping c (Ending c.depthLimit .constraintHit))
        · apply Accords.bind .glance
          intro minFree
          apply keepsLimit_announceConstraint restrained
          intro stand d h
          obtain ⟨shallow, rfl⟩ := here stand d h
          -- The monitor does not take this announcement for one of the depth limit.
          rw [if_neg (memoryLimit_ne_depthLimit _ _)]
          exact ⟨shallow.le, shallow.le, by simp, by simp⟩
        · exact fun _ => .pure fun _ _ h => h
  · rintro w r ⟨⟨h, limit⟩, depth⟩
    exact ⟨by rw [← limit, h.config], h.config, h.going, depth, h.stands⟩

theorem keepsLimit_advance :
    KeepsLimit allowed c j (Below c.depthLimit) (advance (E := E) (P := P) (L := L) false)
      (Turning c.depthLimit) := by
  apply Accords.bind keepsLimit_forward
  intro advanced
  split
  · apply Accords.bind keepsLimit_descend
    intro _
    apply Accords.bind (keepsLimit_advanced restrained)
    intro _
    apply Accords.bind (keepsLimit_settleViolation restrained)
    intro ends
    split
    · -- A violation ends the search here, so that the limit is never announced.
      apply Accords.pure
      rintro w r ⟨config, going, le, stand⟩
      exact ⟨config, going, le, fun _ => ⟨_, stand⟩, fun _ => rfl⟩
    · exact keepsLimit_checkLimits restrained
  · apply Accords.bind (keepsLimit_announce restrained (fun _ _ h => h.1.le) (by simp))
    intro _
    apply Accords.pure
    rintro w r ⟨config, going, below, stand⟩
    exact ⟨config, going, below, .inl stand⟩

theorem keepsLimit_iterate (limitReached : Bool) :
    KeepsLimit allowed c j (Heading c.depthLimit limitReached) (iterate (E := E) (P := P) (L := L) limitReached)
      (Turning c.depthLimit) := by
  apply Accords.bind (keepsLimit_pollProbe restrained)
  intro _
  apply Accords.bind keepsLimit_mustLeave
  intro leave
  split
  · apply Accords.bind (keepsLimit_backtrack.of_imp fun _ _ h => ⟨h.config, h.going, h.stands.2⟩)
    intro back
    split
    · -- One level up the search is below the limit again, whether it was at the limit or not.
      apply Accords.bind keepsLimit_ascend
      intro _
      apply Accords.bind (keepsLimit_announce restrained (fun _ _ h => h.1.le) (by simp))
      exact fun _ => keepsLimit_advance restrained
    · apply Accords.pure
      rintro w r ⟨config, going, le, stand⟩
      exact ⟨config, going, le, by simp, by simp [stand]⟩
  · -- At the limit the state would have been left.
    rename_i stays
    cases limitReached with
    | true =>
      apply Accords.of_imp (J := fun w r => leave = true ∧ Keeping c (Below c.depthLimit) w r)
      · exact .of_known fun left => absurd left stays
      · rintro w r ⟨-, -, left, -⟩
        exact absurd (left rfl) stays
    | false =>
      exact (keepsLimit_advance restrained).of_imp fun _ _ h => ⟨h.config, h.going, h.stands.2⟩

theorem accords_explore (limited : 1 ≤ c.depthLimit) (budget : Nat) :
    Accords allowed (.depthLimit c.depthLimit) j (fun w r => w = {} ∧ r.config = c)
      (explore (E := E) (P := P) (L := L) budget) fun reason w _ => ∃ d, Ending c.depthLimit reason w.stand d := by
  have started : Accords allowed (.depthLimit c.depthLimit) j (fun w r => w = {} ∧ r.config = c)
      (change (E := E) (P := P) (L := L) fun r => { r with depth := 0 })
      fun _ => Keeping c (Heading c.depthLimit false) :=
    .change_silent (fun _ => rfl) fun w r h => ⟨h.2, by rw [h.1], limited, by simp [h.1]⟩
  apply started.bind
  intro _
  apply Accords.bind (keepsLimit_announce restrained (fun _ _ h => h.1.le) (by simp))
  intro _
  apply Accords.bind (K := fun reason => Keeping c (Ending c.depthLimit reason))
  · apply Accords.loop fun limitReached => Keeping c (Heading c.depthLimit limitReached)
    · rintro limitReached w r ⟨config, going, heading⟩ -
      exact ⟨config, going, heading.le.1, by simp, fun at_ => absurd at_ heading.le.2⟩
    · intro limitReached
      apply ((keepsLimit_iterate restrained limitReached).of_imp fun _ _ h => h.1).imp
      intro turn w r h
      cases turn <;> exact ⟨h.config, h.going, h.stands⟩
  intro reason
  apply Accords.bind (K := fun _ w _ => ∃ d, Ending c.depthLimit reason w.stand d)
  · apply accords_announce restrained (fun _ _ _ h _ => h)
    intro w r n h
    refine ⟨{ w with ended := true }, ?_, r.depth, h.stands⟩
    simp [Monitor.depthLimit, LimitWatch.onBulletin, Entry.tellsLimit, Run.bulletin, h.going,
      Nat.not_lt.2 h.stands.1]
  · exact fun _ => .pure fun _ _ h => h

theorem accords_run (limited : 1 ≤ c.depthLimit) (budget : Nat) :
    Accords allowed (.depthLimit c.depthLimit) j (fun w r => w = {} ∧ r.config = c)
      (run (E := E) (P := P) (L := L) budget) fun o w _ => ∃ d, Ending c.depthLimit o.reason w.stand d := by
  apply Accords.bind (accords_launch (fun w r r' h persists => ⟨h.1, persists.config.trans h.2⟩) _)
  intro _
  apply Accords.bind (accords_explore restrained limited budget)
  intro reason
  apply (accords_conclude (fun _ _ _ h _ => h) reason).imp
  rintro o w r ⟨ending, rfl, -⟩
  exact ending

end Run

/-! ### What the journal tells -/

/-- All entries stay within the depth limit: nothing is announced beyond it, and the engine is never told to
    go forward there. -/
def WithinLimit (limit : Nat) (news : List Entry) : Prop :=
  ∀ e ∈ news, (∀ b, e = .announced b → b.depth ≤ limit) ∧ ∀ d done, e = .moved .forward d done → d < limit

/-- A step forward that is announced is followed, before the iteration is over, by the announcement of the
    depth limit if and only if it reached the limit and did not end the search with a violation.  The next
    move after such an announcement, if any, is a step back. -/
def MarksLimit (limit : Nat) (o : Outcome) (news : List Entry) : Prop :=
  ∀ before b after, news = before ++ .announced b :: after →
    (b.event = .stateAdvanced →
      ((∃ e ∈ after.takeWhile (!·.endsTurn), e.tellsLimit limit = true) ↔
        b.depth = limit ∧ ¬ (o.reason = .propertyViolated ∧ after.filterMap Entry.move? = []))) ∧
    ((Entry.announced b).tellsLimit limit = true →
      ∀ move ∈ (after.filterMap Entry.move?).head?, move = .backtrack)

section Journal

variable {o : Outcome} {limit : Nat} {news before after : List Entry} {b : Bulletin} {w : LimitWatch} {d : Nat}

theorem withinLimit_of_reads (reads : (Monitor.depthLimit limit).reads {} news = some w) :
    WithinLimit limit news := by
  intro e member
  obtain ⟨before, after, rfl⟩ := List.append_of_mem member
  obtain ⟨ψ, ψ', -, here, -⟩ := Monitor.reads_split reads
  constructor
  · rintro b rfl
    exact (Monitor.depth_le_of_read here).2
  · rintro d done rfl
    exact Monitor.depth_lt_of_read here

/-- After a step forward the limit is announced in time if it was reached, up to a violation that ends the
    search. -/
theorem tellsLimit_iff (reads : (Monitor.depthLimit limit).reads {} (before ++ .announced b :: after) = some w)
    (ending : Ending limit o.reason w.stand d) (advanced : b.event = .stateAdvanced) :
    (∃ e ∈ after.takeWhile (!·.endsTurn), e.tellsLimit limit = true) ↔
      b.depth = limit ∧ ¬ (o.reason = .propertyViolated ∧ after.filterMap Entry.move? = []) := by
  obtain ⟨ψ, ψ', -, here, rest⟩ := Monitor.reads_split reads
  have arrived : ψ' = { stand := .arrived (b.depth = limit) } := by
    rcases Monitor.read_announced here with ⟨-, -, rfl⟩ | ⟨told, -⟩ | ⟨-, ended, -⟩ | ⟨other, -⟩
    · rfl
    · simp [Entry.tellsLimit, advanced] at told
    · simp [Entry.endsTurn, advanced] at ended
    · exact absurd advanced other
  subst arrived
  -- At the limit what follows is read by `reads_atLimit`, and below it by `reads_belowLimit`.
  by_cases reached : b.depth = limit
  · simp only [reached, decide_true] at rest
    rcases Monitor.reads_atLimit rest with ⟨told, limited⟩ | ⟨untold, still, stand⟩
    · -- A search that ends where the limit was announced does not end with a violation.
      refine iff_of_true told ⟨reached, ?_⟩
      rintro ⟨violated, still⟩
      obtain ⟨atLimit, stand⟩ := ending.2.1 violated
      simp [limited still] at stand
    · refine iff_of_false ?_ fun h => h.2 ⟨ending.2.2 stand, still⟩
      rintro ⟨e, member, told⟩
      simp [untold e member] at told
  · simp only [reached, decide_false] at rest
    refine iff_of_false ?_ fun h => reached h.1
    rintro ⟨e, member, told⟩
    simp [Monitor.reads_belowLimit rest e member] at told

theorem marksLimit_of_reads (reads : (Monitor.depthLimit limit).reads {} news = some w)
    (ending : Ending limit o.reason w.stand d) : MarksLimit limit o news := by
  rintro before b after rfl
  refine ⟨tellsLimit_iff reads ending, fun told => ?_⟩
  obtain ⟨ψ, ψ', -, here, rest⟩ := Monitor.reads_split reads
  exact (Monitor.reads_limited (by rw [Monitor.read_tellsLimit told here]) rest).1

end Journal

variable [Engine E] [Checkable E P] [Listener E P L] {s : Search E P L}

/-- Depth-first search keeps to its depth limit exactly, over any engine and with any properties: it stays
    within the limit however it ends, and if it comes to its end it has marked every arrival at the limit, and
    no other step. -/
theorem depth_limit_bounds_exactly
    (restrained : Listener.Restrained (fun _ : Run E P => True) allowed)
    (listeners : ∀ l ∈ s.listeners, allowed l) (reporter : ∀ l ∈ s.reporter, allowed l)
    (limited : 1 ≤ s.run.config.depthLimit) (budget : Nat) :
    (∀ f t, run budget s = .error f t →
        WithinLimit s.run.config.depthLimit (t.run.journal.entriesFrom s.run.journal.length)) ∧
      ∀ o t, run budget s = .ok o t →
        WithinLimit s.run.config.depthLimit (t.run.journal.entriesFrom s.run.journal.length) ∧
          MarksLimit s.run.config.depthLimit o (t.run.journal.entriesFrom s.run.journal.length) := by
  have ran := accords_run (j := s.run.journal) restrained limited budget s
    ⟨listeners, reporter, {}, .of_eq rfl, rfl, rfl⟩
  constructor
  · intro f t failed
    rw [failed] at ran
    obtain ⟨w, follows⟩ := ran.run
    exact withinLimit_of_reads follows.reads_entriesFrom
  · intro o t done
    rw [done] at ran
    obtain ⟨w, follows, d, ending⟩ := ran.run
    exact ⟨withinLimit_of_reads follows.reads_entriesFrom, marksLimit_of_reads follows.reads_entriesFrom ending⟩

/-- With the limit 2, two steps reach it. -/
theorem tangle_depth_limit : ∃ e s, GraphEngine.ofGraph .tangle = .ok e ∧
    Search.ofEngine e { depthLimit := 2 } = .ok s ∧
    let watching : Search GraphEngine Subject (RuleListener Subject) := s.addListener inquirer
    ∃ o t, run 40 watching = .ok o t ∧
      let news := t.run.journal.entriesFrom watching.run.journal.length
      news.countP (Entry.tellsLimit 2) = 2 ∧ WithinLimit 2 news ∧ MarksLimit 2 o news := by
  refine ⟨_, .fresh _ { depthLimit := 2 }, rfl, rfl, ?_⟩
  intro watching
  have ended : ∃ o t, run 40 watching = .ok o t ∧
      (t.run.journal.entriesFrom watching.run.journal.length).countP (Entry.tellsLimit 2) = 2 :=
    exists_ok_of_check (by decide +kernel)
  obtain ⟨o, t, done, hits⟩ := ended
  have listeners : ∀ l ∈ watching.listeners, l.isMild := by
    have eq : watching.listeners = [inquirer] := rfl
    simpa [eq] using inquirer_isMild
  have reporter : ∀ l ∈ watching.reporter, l.isMild := by
    have eq : watching.reporter = none := rfl
    simp [eq]
  have bounds := depth_limit_bounds_exactly (RuleListener.restrained _) listeners reporter (by decide) 40
  exact ⟨o, t, done, hits, bounds.2 o t done⟩

end DepthFirst

end Statewalk
