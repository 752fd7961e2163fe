import Statewalk.Proofs.Telling
import Statewalk.Strategy.DepthFirst

/-! # An outline of depth-first search

Depth-first search moves its engine, counts its depth and asks for newness; whatever else it does, and
whatever restrained listeners do when they are told of it, is a stir.  `DepthFirst.Outline` lists what
there is to prove of the moves and the question, for predicates that no stir can change.  From that
follows what holds of an iteration, and of a run.
-/

namespace Statewalk

/-- The entry tells a move of the engine. -/
def Entry.isMove : Entry → Bool
  | .moved .. => true
  | .crossed .. => true
  | _ => false

namespace Run

variable {E P : Type} [Engine E] {J : Run E P → Prop} {r r' : Run E P}

/-- Something that happens to a run besides the moves of its engine. -/
inductive Stir : Run E P → Run E P → Prop where
  | call {r r' : Run E P} : Call (fun _ => True) r r' → Stir r r'
  | entry {e : Entry} (r : Run E P) : e.isMove = false → Stir r (r.record e)
  | flags {r r' : Run E P} : r'.engine = r.engine → r'.config = r.config → r'.depth = r.depth →
      r'.depths = r.depths → r'.matching = r.matching → r'.lastQuery = r.lastQuery →
      r'.journal = r.journal → Stir r r'

/-- Any number of stirs. -/
def Stirs : Run E P → Run E P → Prop :=
  Relation.ReflTransGen Stir

/-- No stir makes an end of it. -/
def Unstirred (J : Run E P → Prop) : Prop :=
  ∀ r r', J r → Stir r r' → J r'

theorem Unstirred.stirs (h : Unstirred J) (hr : J r) (stirs : Stirs r r') : J r' := by
  induction stirs with
  | refl => exact hr
  | tail _ last ih => exact h _ _ ih last

theorem Unstirred.robust (h : Unstirred J) : Robust J := by
  intro r r' hr touch
  cases touch with
  | call call => exact h r r' hr (.call call)
  | @aside e _ aside =>
    refine h r _ hr (.entry r ?_)
    cases e <;> first | rfl | cases aside

section Basic

variable (entry : ∀ r e, e.isMove = false → J r → J (r.record e))
  (flags : ∀ r r', r'.engine = r.engine → r'.config = r.config → r'.depth = r.depth →
    r'.depths = r.depths → r'.matching = r.matching → r'.lastQuery = r.lastQuery →
    r'.journal = r.journal → J r → J r')

include entry flags

/-- What is kept by questions, marks, entries and changes of flags is kept by every stir. -/
theorem Unstirred.of_kept (ask : ∀ r answer r', J r → isNew r = .ok answer r' → J r')
    (ignore : ∀ (r : Run E P) mark, J r → J (r.ignore mark)) : Unstirred J := by
  intro r r' hr stir
  cases stir with
  | entry e silent => exact entry r _ silent hr
  | flags engine config depth depths matching query journal =>
    exact flags r r' engine config depth depths matching query journal hr
  | call call =>
    cases call with
    | ask asked => exact ask r _ r' hr asked
    | gauge =>
      exact kept_hasMemory (fun r m hr => flags r _ rfl rfl rfl rfl rfl rfl rfl hr)
        (fun r _ _ hr => entry r _ rfl hr) (fun r _ hr => entry r _ rfl hr) hr
    | tally => exact flags r _ rfl rfl rfl rfl rfl rfl rfl hr
    | @note e _ note =>
      refine entry r e ?_ hr
      cases e <;> first | rfl | cases note
    | requestBacktrack => exact flags r _ rfl rfl rfl rfl rfl rfl rfl hr
    | requestProbe => exact flags r _ rfl rfl rfl rfl rfl rfl rfl hr
    | terminate => exact entry _ _ rfl (flags r { r with done := true } rfl rfl rfl rfl rfl rfl rfl hr)
    | ignore mark => exact ignore r mark hr

end Basic

theorem stirs_hasMemory (r : Run E P) : Stirs r r.hasMemory.2 :=
  .single (.call (.gauge r))

theorem stirs_endsAtViolation (r : Run E P) : Stirs r r.endsAtViolation.2 := by
  unfold endsAtViolation
  split_ifs
  · exact .refl
  · exact .single (.call (.requestBacktrack r))
  · exact .refl

/-- The properties are checked at a depth that is still to be counted. -/
theorem stirs_checkProperties [Checkable E P] (r : Run E P) (d : Nat) :
    Stirs { r with depth := d } { r.checkProperties.2 with depth := d } := by
  unfold checkProperties
  simp only
  split
  · rename_i w _
    have noted : Stir { r with depth := d }
        (record (.violated (r.violations.length + 1) (Named.name w.property) r.depth) { r with depth := d }) :=
      .entry _ rfl
    exact .tail (.single noted) (.flags rfl rfl rfl rfl rfl rfl rfl)
  · exact .single (.flags rfl rfl rfl rfl rfl rfl rfl)

/-- No stir makes an end of it, it lasts to the end, and questions fail fairly if at all. -/
structure Stable (final : Run E P → Prop) (fair : Failure → Prop) (J : Run E P → Prop) : Prop where
  unstirred : Unstirred J
  final : ∀ r, J r → final r
  asked : ∀ r f, J r → isNew r = .error f r → fair f

theorem Stable.and {final final' J J' : Run E P → Prop} {fair fair' : Failure → Prop} (h : Stable final fair J)
    (h' : Stable final' fair' J') :
    Stable (fun r => final r ∧ final' r) (fun f => fair f ∧ fair' f) fun r => J r ∧ J' r where
  unstirred r r' hr stir := ⟨h.unstirred r r' hr.1 stir, h'.unstirred r r' hr.2 stir⟩
  final r hr := ⟨h.final r hr.1, h'.final r hr.2⟩
  asked r f hr failed := ⟨h.asked r f hr.1 failed, h'.asked r f hr.2 failed⟩

theorem Stable.of_index {ι : Type} {final : Run E P → Prop} {fair : Failure → Prop} {J : ι → Run E P → Prop}
    (h : ∀ n, Stable final fair (J n)) : Stable final fair fun r => ∃ n, J n r where
  unstirred := by
    rintro r r' ⟨n, hr⟩ stir
    exact ⟨n, (h n).unstirred r r' hr stir⟩
  final := by
    rintro r ⟨n, hr⟩
    exact (h n).final r hr
  asked := by
    rintro r f ⟨n, hr⟩ failed
    exact (h n).asked r f hr failed

end Run

/-- It takes in whatever listeners fail with of their own accord, and laying it to a listener. -/
structure Failure.Fair (fair : Failure → Prop) : Prop where
  own : ∀ f, f.isOwn = true → fair f
  raised : ∀ f event name, fair f → fair (f.raisedBy event name)

theorem Failure.Fair.fault {fair : Failure → Prop} (h : Fair fair) (f : Fault) : fair (.fault f) :=
  h.own _ rfl

/-! ## Operations -/

namespace Search

variable {E P L : Type} {α β : Type} {seen final : Run E P → Prop} {fair : Failure → Prop}
  {allowed : L → Prop} {J : Run E P → Prop} {K : α → Run E P → Prop}

/-- The operation leads from runs with `J` to runs with `K`, or fails fairly at the end. -/
def Proceeds (final : Run E P → Prop) (fair : Failure → Prop) (allowed : L → Prop)
    (J : Run E P → Prop) (x : SearchM E P L α) (K : α → Run E P → Prop) : Prop :=
  Ensures (Heeded allowed J) x (fun a => Heeded allowed (K a))
    fun f => Heeded allowed fun r => final r ∧ fair f

namespace Proceeds

variable {x : SearchM E P L α}

theorem pure {a : α} (h : ∀ r, J r → K a r) : Proceeds final fair allowed J (Pure.pure a) K :=
  Ensures.pure fun _ hs => hs.imp h

theorem bind {f : α → SearchM E P L β} {M : β → Run E P → Prop} (hx : Proceeds final fair allowed J x K)
    (hf : ∀ a, Proceeds final fair allowed (K a) (f a) M) : Proceeds final fair allowed J (x >>= f) M :=
  Ensures.bind hx hf

theorem of_imp {I : Run E P → Prop} (hx : Proceeds final fair allowed J x K) (h : ∀ r, I r → J r) :
    Proceeds final fair allowed I x K :=
  Ensures.of_imp hx fun _ hs => hs.imp h

theorem change {f : Run E P → Run E P} {M : Run E P → Prop} (h : ∀ r, J r → M (f r)) :
    Proceeds final fair allowed J (Search.change f) fun _ => M :=
  ensures_change h

theorem update {f : Run E P → α × Run E P} (h : ∀ r, J r → K (f r).1 (f r).2) :
    Proceeds final fair allowed J (Search.update f) K :=
  ensures_update h

end Proceeds

theorem proceeds_look {f : Run E P → α} : Proceeds final fair allowed J (look f) fun _ => J :=
  ensures_look.imp fun _ _ hs => hs.imp fun _ h => h.1

section Engine

variable [Engine E]

theorem proceeds_stir {f : Run E P → α × Run E P} (unstirred : Run.Unstirred J)
    (h : ∀ r, Run.Stirs r (f r).2) : Proceeds final fair allowed J (update f) fun _ => J :=
  .update fun r hr => unstirred.stirs hr (h r)

theorem proceeds_flag {f : Run E P → Run E P} (unstirred : Run.Unstirred J) (h : ∀ r, Run.Stir r (f r)) :
    Proceeds final fair allowed J (change f) fun _ => J :=
  .change fun r hr => unstirred r _ hr (h r)

variable [Listener E P L] (restrained : Listener.Restrained seen allowed)
  (candid : Listener.Candid seen allowed) (shown : ∀ r, final r → seen r) (closed : Failure.Fair fair)
  (stable : Run.Stable final fair J)

include restrained candid shown closed stable

theorem proceeds_announce (event : Event) :
    Proceeds final fair allowed J (announce (E := E) (P := P) (L := L) event) fun _ => J := by
  have inside (r : Run E P) (h : J r) : seen r := shown r (stable.final r h)
  have told : Ensures (Heeded allowed J) (announce (E := E) (P := P) (L := L) event)
      (fun _ => Heeded allowed J) fun f => Heeded allowed fun r => J r ∧ fair f :=
    fair_announce (restrained.of_imp inside) (candid.of_imp inside) stable.unstirred.robust closed.own
      closed.raised stable.asked fun r n h => stable.unstirred r _ h (.entry r rfl)
  exact told.imp_fail fun _ _ ht => ht.imp fun r h => ⟨stable.final r h.1, h.2⟩

theorem proceeds_pollProbe :
    Proceeds final fair allowed J (pollProbe (E := E) (P := P) (L := L)) fun _ => J := by
  apply Proceeds.bind
  · exact proceeds_stir stable.unstirred fun r => .single (.flags rfl rfl rfl rfl rfl rfl rfl)
  intro requested
  split
  · exact proceeds_announce restrained candid shown closed stable _
  · exact .pure fun _ h => h

theorem proceeds_announceConstraint (details : String) :
    Proceeds final fair allowed J (announceConstraint (E := E) (P := P) (L := L) details) fun _ => J := by
  apply Proceeds.bind
  · exact proceeds_flag stable.unstirred fun r => .flags rfl rfl rfl rfl rfl rfl rfl
  exact fun _ => proceeds_announce restrained candid shown closed stable _

theorem proceeds_announceMemoryLimit :
    Proceeds final fair allowed J (announceMemoryLimit (E := E) (P := P) (L := L)) fun _ => J := by
  apply Proceeds.bind proceeds_look
  exact fun _ => proceeds_announceConstraint restrained candid shown closed stable _

theorem proceeds_settleViolation [Property P] :
    Proceeds final fair allowed J (settleViolation (E := E) (P := P) (L := L)) fun _ => J := by
  apply Proceeds.bind proceeds_look
  intro violated
  split
  · apply Proceeds.bind (K := fun _ => J)
    · apply Proceeds.bind (proceeds_announce restrained candid shown closed stable _)
      intro _
      apply Proceeds.bind proceeds_look
      intro continues
      split
      · exact proceeds_flag stable.unstirred fun r => .flags rfl rfl rfl rfl rfl rfl rfl
      · exact .pure fun _ h => h
    · exact fun _ => proceeds_stir stable.unstirred Run.stirs_endsAtViolation
  · exact .pure fun _ h => h

theorem proceeds_checkLimits (limitReached : Bool) :
    Proceeds final fair allowed J (DepthFirst.checkLimits (E := E) (P := P) (L := L) limitReached)
      fun _ => J := by
  apply Proceeds.bind proceeds_look
  intro limit
  apply Proceeds.bind proceeds_look
  intro depth
  split
  · apply Proceeds.bind (proceeds_announceConstraint restrained candid shown closed stable _)
    exact fun _ => .pure fun _ h => h
  · apply Proceeds.bind (proceeds_stir stable.unstirred Run.stirs_hasMemory)
    intro enough
    split
    · exact .pure fun _ h => h
    · apply Proceeds.bind (proceeds_announceMemoryLimit restrained candid shown closed stable)
      exact fun _ => .pure fun _ h => h

end Engine

end Search

/-! ## Depth-first search -/

namespace DepthFirst

open Search

variable {E P L : Type} [Engine E]

/-- What there is to prove of depth-first search: `head` holds before an iteration and `next` after it,
    `asked` once it is known whether the current state is new, and `opened` before a step forward. -/
structure Outline (head next opened final : Run E P → Prop) (asked : Bool → Run E P → Prop)
    (fair : Failure → Prop) : Prop where
  closed : Failure.Fair fair
  stable_head : Run.Stable final fair head
  stable_next : Run.Stable final fair next
  stable_opened : Run.Stable final fair opened
  stable_final : Run.Stable final fair final
  depth : ∀ (r : Run E P) d, final { r with depth := d } → final r
  ask : ∀ r answer r', head r → Run.isNew r = .ok answer r' → asked answer r'
  taken : ∀ r answer, asked answer r → asked answer r.takeBacktrackRequest.2
  stays : ∀ r, asked true r → opened r
  back : ∀ r answer r', asked answer r → r.forgetQuery.stepBack = (true, r') →
    opened { r' with depth := r'.depth - 1 }
  exhausted : ∀ r answer r', asked answer r → r.forgetQuery.stepBack = (false, r') → final r'
  moves : ∀ r, opened r → (Engine.forward r.engine).1 = true →
    next { r.stepped with depth := r.depth + 1 }
  stuck : ∀ r, opened r → (Engine.forward r.engine).1 = false → next r.stepped

/-- Two outlines can be followed at once. -/
theorem Outline.and {head next opened final head' next' opened' final' : Run E P → Prop}
    {asked asked' : Bool → Run E P → Prop} {fair fair' : Failure → Prop}
    (o : Outline head next opened final asked fair) (o' : Outline head' next' opened' final' asked' fair') :
    Outline (fun r => head r ∧ head' r) (fun r => next r ∧ next' r) (fun r => opened r ∧ opened' r)
      (fun r => final r ∧ final' r) (fun answer r => asked answer r ∧ asked' answer r)
      (fun f => fair f ∧ fair' f) where
  closed := ⟨fun f own => ⟨o.closed.own f own, o'.closed.own f own⟩,
    fun f event name h => ⟨o.closed.raised f event name h.1, o'.closed.raised f event name h.2⟩⟩
  stable_head := o.stable_head.and o'.stable_head
  stable_next := o.stable_next.and o'.stable_next
  stable_opened := o.stable_opened.and o'.stable_opened
  stable_final := o.stable_final.and o'.stable_final
  depth r d h := ⟨o.depth r d h.1, o'.depth r d h.2⟩
  ask r answer r' h asked := ⟨o.ask r answer r' h.1 asked, o'.ask r answer r' h.2 asked⟩
  taken r answer h := ⟨o.taken r answer h.1, o'.taken r answer h.2⟩
  stays r h := ⟨o.stays r h.1, o'.stays r h.2⟩
  back r answer r' h moved := ⟨o.back r answer r' h.1 moved, o'.back r answer r' h.2 moved⟩
  exhausted r answer r' h moved := ⟨o.exhausted r answer r' h.1 moved, o'.exhausted r answer r' h.2 moved⟩
  moves r h moved := ⟨o.moves r h.1 moved, o'.moves r h.2 moved⟩
  stuck r h refused := ⟨o.stuck r h.1 refused, o'.stuck r h.2 refused⟩

/-- An index that changes from one iteration to the next can be left out. -/
theorem Outline.of_index {ι : Type} {head next opened : ι → Run E P → Prop} {final : Run E P → Prop}
    {asked : ι → Bool → Run E P → Prop} {fair : Failure → Prop} [Inhabited ι]
    (o : ∀ n, Outline (head n) (next n) (opened n) final (asked n) fair) :
    Outline (fun r => ∃ n, head n r) (fun r => ∃ n, next n r) (fun r => ∃ n, opened n r) final
      (fun answer r => ∃ n, asked n answer r) fair where
  closed := (o default).closed
  stable_head := .of_index fun n => (o n).stable_head
  stable_next := .of_index fun n => (o n).stable_next
  stable_opened := .of_index fun n => (o n).stable_opened
  stable_final := (o default).stable_final
  depth := (o default).depth
  ask r answer r' h asked := h.imp fun n h => (o n).ask r answer r' h asked
  taken r answer h := h.imp fun n h => (o n).taken r answer h
  stays r h := h.imp fun n h => (o n).stays r h
  back r answer r' h moved := h.imp fun n h => (o n).back r answer r' h moved
  exhausted r answer r' h moved := by
    obtain ⟨n, h⟩ := h
    exact (o n).exhausted r answer r' h moved
  moves r h moved := h.imp fun n h => (o n).moves r h moved
  stuck r h refused := h.imp fun n h => (o n).stuck r h refused

/-- No operation of a depth-first search changes its configuration. -/
theorem outline_configured (config : Config) : Outline (E := E) (P := P) (fun r => r.config = config)
    (fun r => r.config = config) (fun r => r.config = config) (fun r => r.config = config)
    (fun _ r => r.config = config) fun _ => True := by
  have unstirred : Run.Unstirred fun r : Run E P => r.config = config := by
    apply Run.Unstirred.of_kept
    · exact fun r e _ h => h
    · exact fun r r' _ same _ _ _ _ _ h => same.trans h
    · exact fun r answer r' h asked => (Run.Attended.isNew asked).config.trans h
    · exact fun r mark h => h
  have stable : Run.Stable (fun r : Run E P => r.config = config) (fun _ => True) fun r => r.config = config :=
    ⟨unstirred, fun _ h => h, fun _ _ _ _ => trivial⟩
  exact {
    closed := ⟨fun _ _ => trivial, fun _ _ _ _ => trivial⟩
    stable_head := stable
    stable_next := stable
    stable_opened := stable
    stable_final := stable
    depth := fun r d h => h
    ask := fun r answer r' h asked => (Run.Attended.isNew asked).config.trans h
    taken := fun r answer h => h
    stays := fun r h => h
    back := fun r answer r' h moved => by
      obtain rfl : r.forgetQuery.stepBack.2 = r' := congrArg Prod.snd moved
      exact h
    exhausted := fun r answer r' h moved => by
      obtain rfl : r.forgetQuery.stepBack.2 = r' := congrArg Prod.snd moved
      exact h
    moves := fun r h _ => h
    stuck := fun r h _ => h }

namespace Outline

variable {seen head next opened final start : Run E P → Prop} {asked : Bool → Run E P → Prop}
  {fair : Failure → Prop} {allowed : L → Prop} (outline : Outline head next opened final asked fair)

include outline

theorem proceeds_mustLeave (limitReached : Bool) :
    Proceeds final fair allowed head (mustLeave (E := E) (P := P) (L := L) limitReached)
      fun leaves r => ∃ answer, asked answer r ∧ (leaves = false → answer = true) := by
  have question : Ensures head (Run.isNew (E := E) (P := P)) asked fun f r => final r ∧ fair f := by
    intro r h
    obtain ⟨answer, depths, query, given, -⟩ | ⟨f, failed, -⟩ := Run.isNew_cases r
    · rw [given]
      exact outline.ask r answer _ h given
    · rw [failed]
      exact ⟨outline.stable_head.final r h, outline.stable_head.asked r f h failed⟩
  apply Proceeds.bind (ensures_onRun question)
  intro answer
  apply Proceeds.bind (K := fun _ => asked answer) (.update fun r h => outline.taken r answer h)
  intro requested
  apply Proceeds.bind proceeds_look
  intro engine
  refine .pure fun r h => ⟨answer, h, ?_⟩
  cases answer <;> simp

theorem proceeds_backtrack :
    Proceeds final fair allowed (fun r => ∃ answer, asked answer r) (backtrack (E := E) (P := P) (L := L))
      fun moved r => if moved then opened { r with depth := r.depth - 1 } else final r := by
  apply Proceeds.bind (K := fun _ r => ∃ r₀ answer, asked answer r₀ ∧ r = r₀.forgetQuery)
  · apply Proceeds.change
    rintro r ⟨answer, h⟩
    exact ⟨r, answer, h, rfl⟩
  intro _
  apply Proceeds.update
  rintro _ ⟨r, answer, h, rfl⟩
  rcases stepped : r.forgetQuery.stepBack with ⟨moved, r'⟩
  cases moved with
  | true => exact outline.back r answer r' h stepped
  | false => exact outline.exhausted r answer r' h stepped

theorem proceeds_ascend :
    Proceeds final fair allowed (fun r => opened { r with depth := r.depth - 1 })
      (onRun (E := E) (P := P) (L := L) Run.ascend) fun _ => opened := by
  apply ensures_onRun
  apply Ensures.get
  intro r h
  split
  · refine .throw fun _ eq => eq ▸ ⟨?_, outline.closed.fault _⟩
    exact outline.depth r _ (outline.stable_opened.final _ h)
  · exact .set (.pure fun _ eq => eq ▸ h)

variable [Checkable E P]

theorem proceeds_forward :
    Proceeds final fair allowed opened (Search.forward (E := E) (P := P) (L := L)) fun moved r =>
      if moved then next { r with depth := r.depth + 1 } else next r := by
  intro s hs
  have checked := Run.stirs_checkProperties s.run.stepped
  have stepped : Run.stepForward { s.run with atViolation := false, lastQuery := none } =
      ((Engine.forward s.run.engine).1, s.run.stepped) := Run.stepForward_eq _
  have depth : s.run.stepped.checkProperties.2.depth = s.run.depth := by
    unfold Run.checkProperties
    simp only
    split <;> rfl
  simp only [Search.forward, bind, EStateM.bind, change_apply, update_apply, stepped, pure, EStateM.pure]
  refine ⟨hs.listeners, hs.reporter, ?_⟩
  cases moved : (Engine.forward s.run.engine).1 with
  | true =>
    simp only [if_true, depth]
    exact outline.stable_next.unstirred.stirs (outline.moves s.run hs.run moved) (checked _)
  | false =>
    simp only [Bool.false_eq_true, if_false]
    have kept := outline.stable_next.unstirred.stirs (outline.stuck s.run hs.run moved) (checked s.run.depth)
    rw [← depth] at kept
    exact kept

omit [Checkable E P] in
theorem proceeds_descend :
    Proceeds final fair allowed (fun r => next { r with depth := r.depth + 1 })
      (onRun (E := E) (P := P) (L := L) Run.descend) fun _ => next := by
  apply ensures_onRun
  apply Ensures.get
  intro r h
  unfold addWords
  split_ifs
  · exact .set (.pure fun _ eq => eq ▸ h)
  · refine .throw fun _ eq => eq ▸ ⟨?_, outline.closed.fault _⟩
    exact outline.depth r _ (outline.stable_next.final _ h)

section Listeners

variable [Listener E P L] (restrained : Listener.Restrained seen allowed)
  (candid : Listener.Candid seen allowed) (shown : ∀ r, final r → seen r)

include restrained candid shown

theorem proceeds_advance (limitReached : Bool) :
    Proceeds final fair allowed opened (advance (E := E) (P := P) (L := L) limitReached)
      fun _ => next := by
  have told (event : Event) : Proceeds final fair allowed next
      (announce (E := E) (P := P) (L := L) event) fun _ => next :=
    proceeds_announce restrained candid shown outline.closed outline.stable_next event
  apply Proceeds.bind outline.proceeds_forward
  intro moved
  cases moved with
  | true =>
    apply Proceeds.bind outline.proceeds_descend
    intro _
    apply Proceeds.bind (told _)
    intro _
    apply Proceeds.bind
    · exact proceeds_settleViolation restrained candid shown outline.closed outline.stable_next
    intro ends
    split
    · exact .pure fun _ h => h
    · exact proceeds_checkLimits restrained candid shown outline.closed outline.stable_next limitReached
  | false =>
    apply Proceeds.bind (told _)
    exact fun _ => .pure fun _ h => h

theorem proceeds_iterate (limitReached : Bool) :
    Proceeds final fair allowed head (iterate (E := E) (P := P) (L := L) limitReached)
      (Ensures.onTurn (fun _ => next) fun _ => final) := by
  have advances (limitReached : Bool) : Proceeds final fair allowed opened
      (advance (E := E) (P := P) (L := L) limitReached) (Ensures.onTurn (fun _ => next) fun _ => final) := by
    apply (outline.proceeds_advance restrained candid shown limitReached).imp
    intro turn s hs
    cases turn with
    | again _ => exact hs
    | stop _ => exact hs.imp outline.stable_next.final
  apply Proceeds.bind
  · exact proceeds_pollProbe restrained candid shown outline.closed outline.stable_head
  intro _
  apply Proceeds.bind (outline.proceeds_mustLeave limitReached)
  intro leaves
  cases leaves with
  | true =>
    refine Proceeds.of_imp (J := fun r => ∃ answer, asked answer r) ?_ fun r h => h.imp fun _ => And.left
    apply Proceeds.bind outline.proceeds_backtrack
    intro moved
    cases moved with
    | true =>
      apply Proceeds.bind outline.proceeds_ascend
      intro _
      apply Proceeds.bind
      · exact proceeds_announce restrained candid shown outline.closed outline.stable_opened _
      exact fun _ => advances false
    | false => exact .pure fun _ h => h
  | false =>
    refine (advances limitReached).of_imp ?_
    rintro r ⟨answer, h, stays⟩
    obtain rfl := stays rfl
    exact outline.stays r h

theorem ensures_iterate (limitReached : Bool) :
    Ensures (Heeded allowed head) (iterate (E := E) (P := P) (L := L) limitReached)
      (Ensures.onTurn (fun _ => Heeded allowed next) fun _ => Heeded allowed final)
      fun f => Heeded allowed fun r => final r ∧ fair f := by
  apply (outline.proceeds_iterate restrained candid shown limitReached).imp
  intro turn s hs
  cases turn with
  | again _ => exact hs
  | stop _ => exact hs

/-- Around the loop a run only enters its start and its end in the journal and tells of them. -/
theorem ensures_run {budget : Nat}
    (recorded : ∀ r e, e.isMove = false → start r → start (r.record e))
    (begun : ∀ r, start r → head { r with matching := true, depth := 0 })
    (looped : Proceeds final fair allowed head
      (loop (·.run.done) .terminated (iterate (E := E) (P := P) (L := L)) budget false) fun _ => final) :
    Proceeds final fair allowed start (DepthFirst.run (E := E) (P := P) (L := L) budget)
      fun _ => final := by
  have launched : Proceeds final fair allowed start (do
      change (L := L) (Run.record (.launched "dfs"))
      change fun r : Run E P => { r with matching := true }) fun _ r => head { r with depth := 0 } :=
    Proceeds.bind (.change fun r => recorded r _ rfl) fun _ => .change begun
  apply Proceeds.bind (K := fun _ r => head { r with depth := 0 })
  · apply Proceeds.bind proceeds_look
    intro unguarded
    split
    · exact Proceeds.bind (.change fun r => recorded r _ rfl) fun _ => launched
    · exact launched
  intro _
  apply Proceeds.bind (K := fun _ => final)
  · apply Proceeds.bind (.change (M := head) fun r h => h)
    intro _
    apply Proceeds.bind
    · exact proceeds_announce restrained candid shown outline.closed outline.stable_head _
    intro _
    apply Proceeds.bind looped
    intro reason
    apply Proceeds.bind
    · exact proceeds_announce restrained candid shown outline.closed outline.stable_final _
    exact fun _ => .pure fun _ h => h
  intro reason
  apply Proceeds.bind
  · exact proceeds_flag outline.stable_final.unstirred fun r => .flags rfl rfl rfl rfl rfl rfl rfl
  exact fun _ => proceeds_look

end Listeners

end Outline

end DepthFirst

end Statewalk
