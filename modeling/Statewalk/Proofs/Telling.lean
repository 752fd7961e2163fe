import Statewalk.Proofs.Restraint

/-! # Telling listeners that may fail

A listener may fail when it is told of an event.  It is candid if it fails of its own accord only, or with
the failure of a question that it asked; then a search fails no worse than its listeners and its questions.
-/

namespace Statewalk

namespace Failure

/-- It was the depth of an unvisited state that was asked for, by whomever. -/
def mentionsUnvisited : Failure → Bool
  | .unvisited _ => true
  | .listener _ _ cause => cause.mentionsUnvisited
  | _ => false

/-- A listener may fail so of its own accord. -/
def isOwn (f : Failure) : Bool :=
  !f.mentionsUnvisited && f ≠ .outOfFuel

@[simp] theorem mentionsUnvisited_raisedBy (event : Event) (name : String) (f : Failure) :
    (f.raisedBy event name).mentionsUnvisited = f.mentionsUnvisited := by
  cases f <;> rfl

theorem raisedBy_ne_outOfFuel {f : Failure} (h : f ≠ .outOfFuel) (event : Event) (name : String) :
    f.raisedBy event name ≠ .outOfFuel := by
  cases f <;> simp_all [raisedBy]

end Failure

namespace Run

variable {E P : Type} [Engine E] {r r' : Run E P}

/-- Somebody who only makes calls may fail so: of their own accord, or with the failure of a question. -/
def Excuses (r : Run E P) (f : Failure) : Prop :=
  f.isOwn = true ∨ ∃ r', r.Calls (fun _ => True) r' ∧ isNew r' = .error f r'

theorem Excuses.of_calls {f : Failure} (calls : r.Calls (fun _ => True) r') (h : r'.Excuses f) :
    r.Excuses f := by
  cases h with
  | inl own => exact .inl own
  | inr asked =>
    obtain ⟨r'', calls', failed⟩ := asked
    exact .inr ⟨r'', calls.trans calls', failed⟩

end Run

namespace Listener

variable {E P L : Type} [Engine E] [Listener E P L] {allowed : L → Prop} {J : Run E P → Prop}

omit [Engine E] in
theorem BreaksOff.imp {K : Run E P → Prop} {event : Event} {f : Failure} {r : Run E P}
    (h : BreaksOff allowed J event f r) (imp : ∀ r, J r → K r) : BreaksOff allowed K event f r := by
  obtain ⟨l, r', hl, hr, told⟩ := h
  exact ⟨l, r', hl, imp r' hr, told⟩

/-- The allowed listeners fail of their own accord, or pass on that they could not be answered. -/
def Candid (seen : Run E P → Prop) (allowed : L → Prop) : Prop :=
  ∀ (event : Event) (l : L) (r : Run E P), allowed l → seen r →
    Ensures (· = (l, r)) (hear event) (fun _ _ => True) fun f _ => r.Excuses f

theorem Candid.of_imp {seen : Run E P → Prop} (candid : Candid seen allowed)
    (imp : ∀ r, J r → seen r) : Candid J allowed :=
  fun event l r hl hr => candid event l r hl (imp r hr)

/-- Where telling candid listeners fails, so would a question, or one of them had a reason. -/
theorem BreaksOff.fair {F : Failure → Prop} {event : Event} {f : Failure} {r : Run E P}
    (h : BreaksOff allowed J event f r) (candid : Candid J allowed) (robust : Run.Robust J)
    (own : ∀ f, f.isOwn = true → F f) (raised : ∀ f event name, F f → F (f.raisedBy event name))
    (asked : ∀ r f, J r → Run.isNew r = .error f r → F f) : F f := by
  obtain ⟨l, r', hl, hr', failed, -⟩ := h
  obtain ⟨cause, s, heard, rfl⟩ := exists_of_verdict failed
  have called : J (r'.record (.called (Named.name l) event)) := robust _ _ hr' (.aside r' rfl)
  have excuse := candid event l _ hl called _ rfl
  rw [heard] at excuse
  apply raised
  cases excuse with
  | inl mine => exact own cause mine
  | inr question =>
    obtain ⟨r'', calls, failed⟩ := question
    exact asked r'' cause (robust.calls called calls) failed

end Listener

namespace Search

variable {E P L : Type} [Engine E] [Listener E P L] {allowed : L → Prop} {J K : Run E P → Prop}

/-- Failures are as `F` says if those of listeners' own and those of questions are. -/
theorem fair_announce {F : Failure → Prop} (restrained : Listener.Restrained K allowed)
    (candid : Listener.Candid K allowed) (robust : Run.Robust K) (own : ∀ f, f.isOwn = true → F f)
    (raised : ∀ f event name, F f → F (f.raisedBy event name))
    (asked : ∀ r f, K r → Run.isNew r = .error f r → F f) {event : Event}
    (announced : ∀ r n, J r → K (r.record (.announced (r.bulletin n event)))) :
    Ensures (Heeded allowed J) (announce (E := E) (P := P) (L := L) event)
      (fun _ => Heeded allowed K) fun f => Heeded allowed fun r => K r ∧ F f :=
  (robust_announce restrained robust announced).imp_fail fun _ _ ht =>
    ht.imp fun _ h => ⟨h.1, h.2.fair candid robust own raised asked⟩

end Search

/-! ## Rules -/

section Rules

variable {E P : Type} [Engine E] [Property P]

/-- The action is mild, and no question for the depth of some state. -/
def Action.isModest : Action P → Bool
  | .stateDepth _ => false
  | action => action.isMild

theorem Action.excuses_perform {action : Action P} (modest : action.isModest = true) {r r' : Run E P}
    {f : Failure} (h : action.perform r = .error f r') : r.Excuses f := by
  cases action with
  | isNew | isVisited =>
    simp only [perform, bind, EStateM.bind] at h
    obtain ⟨answer, depths, query, asked, -⟩ | ⟨g, failed, -⟩ := Run.isNew_cases r
    · rw [asked] at h
      cases h
    · rw [failed] at h
      cases h
      exact .inr ⟨r, .refl, failed⟩
  | stateDepth => simp [isModest] at modest
  | raise => simp [isModest, isMild] at modest
  | _ => cases h

/-- The deed is to fail, or a modest action. -/
def Deed.isModest : Deed P → Bool
  | .fail _ => true
  | .act _ action => action.isModest

omit [Property P] in
theorem Deed.isMild_of_isModest {deed : Deed P} (modest : deed.isModest = true) :
    deed.isMild = true := by
  cases deed with
  | fail => rfl
  | act word action => cases action <;> first | exact modest | cases modest

namespace RuleListener

/-- All rules of the listener are modest. -/
def isModest (l : RuleListener P) : Prop :=
  ∀ q ∈ l.rules, q.deed.isModest = true

omit [Property P] in
theorem isMild_of_isModest {l : RuleListener P} (modest : l.isModest) : l.isMild :=
  fun q member => Deed.isMild_of_isModest (modest q member)

theorem excuses_carryOut (name : String) {deed : Deed P} (modest : deed.isModest = true)
    {r r' : Run E P} {f : Failure} (h : carryOut name deed r = .error f r') : r.Excuses f := by
  cases deed with
  | fail reason =>
    cases h
    exact .inl rfl
  | act word action =>
    simp only [carryOut, bind, EStateM.bind] at h
    cases performed : action.perform r with
    | ok answer r'' =>
      rw [performed] at h
      cases h
    | error g r'' =>
      rw [performed] at h
      cases h
      exact Action.excuses_perform modest performed

/-- Rules count their matches and stay the same otherwise. -/
theorem deeds_follow (name : String) (event : Event) (qs : List (Rule P)) (r : Run E P) :
    (follow name event qs r).listener.map (·.deed) = qs.map (·.deed) := by
  induction qs generalizing r with
  | nil => rfl
  | cons q qs ih =>
    simp only [follow]
    split
    · split
      · cases carryOut (E := E) name q.deed r with
        | error f r' => rfl
        | ok _ r' => simp [ih]
      · simp [ih]
    · simp [ih]

theorem excuses_follow (name : String) (event : Event) {qs : List (Rule P)}
    (modest : ∀ q ∈ qs, q.deed.isModest = true) {r : Run E P} {f : Failure}
    (h : (follow name event qs r).verdict = .error f) : r.Excuses f := by
  induction qs generalizing r with
  | nil => cases h
  | cons q qs ih =>
    obtain ⟨first, others⟩ := List.forall_mem_cons.1 modest
    simp only [follow] at h
    split at h
    · split at h
      · have polite : RunM.Polite (fun _ => True) (carryOut (E := E) name q.deed) :=
          polite_carryOut name (Deed.isMild_of_isModest first)
        have carried := polite r r .refl
        cases result : carryOut (E := E) name q.deed r with
        | error g r' =>
          rw [result] at h
          cases h
          exact excuses_carryOut name first result
        | ok _ r' =>
          rw [result] at h carried
          exact .of_calls carried (ih others h)
      · exact ih others h
    · exact ih others h

omit [Property P] in
theorem isModest_of_deeds {l l' : RuleListener P} (modest : l.isModest)
    (deeds : l'.rules.map (·.deed) = l.rules.map (·.deed)) : l'.isModest := by
  intro q member
  have kept : q.deed ∈ l.rules.map (·.deed) := deeds ▸ List.mem_map_of_mem member
  obtain ⟨q', member', eq⟩ := List.mem_map.1 kept
  exact eq ▸ modest q' member'

theorem restrained_of_isModest (seen : Run E P → Prop) :
    Listener.Restrained seen (isModest (P := P)) := by
  rintro event l r modest - _ rfl
  have mild : Ensures (· = (l, r)) (Listener.hear event)
      (fun _ s => s.1.isMild ∧ r.Calls (fun _ => True) s.2) _ :=
    ensures_hear event (isMild_of_isModest modest) r
  have heard := mild _ rfl
  obtain ⟨r', -, passes, fails⟩ := hear_cases event l r
  have deeds := deeds_follow l.name event l.rules r'
  cases verdict : (follow l.name event l.rules r').verdict with
  | ok u =>
    rw [passes u verdict] at heard ⊢
    exact ⟨isModest_of_deeds modest deeds, heard.2⟩
  | error f =>
    rw [fails f verdict] at heard ⊢
    exact ⟨⟨isModest_of_deeds modest deeds, heard.1.2⟩, heard.2⟩

theorem candid (seen : Run E P → Prop) : Listener.Candid seen (isModest (P := P)) := by
  rintro event l r modest - _ rfl
  obtain ⟨r', remark, passes, fails⟩ := hear_cases event l r
  cases verdict : (follow l.name event l.rules r').verdict with
  | ok u =>
    rw [passes u verdict]
    trivial
  | error f =>
    rw [fails f verdict]
    exact .of_calls (Run.calls_of_remark remark) (excuses_follow l.name event modest verdict)

end RuleListener

end Rules

end Statewalk
