import Statewalk.Proofs.Impartiality

/-! # The conduct of listeners

What listeners do to a run between two steps of a search is described by a relation: `Listener.Conducts R`
says that whatever they are told, the run before and the run after are related.  Relations that can be
strung together and let everybody write to the journal are a `Run.Licence`; for these, the conduct of a
listener with rules is that of the actions in its rules.
-/

namespace Statewalk

section Conduct

variable {E P L : Type} [Listener E P L]

/-- Changes that may be made one after another, writing to the journal among them. -/
structure Run.Licence (R : Run E P → Run E P → Prop) : Prop where
  refl : ∀ r, R r r
  trans : ∀ r r' r'', R r r' → R r' r'' → R r r''
  record : ∀ e r, R r (r.record e)

/-- Whatever these listeners are told, they change a run only in such a way, and stay what they are. -/
def Listener.Conducts (R : Run E P → Run E P → Prop) (allowed : L → Prop) : Prop :=
  ∀ (event : Event) (l : L) (r : Run E P), allowed l →
    Ensures (· = (l, r)) (hear event) (fun _ s => allowed s.1 ∧ R r s.2) fun _ s => allowed s.1 ∧ R r s.2

variable {R : Run E P → Run E P → Prop} {allowed : L → Prop}

theorem Listener.Conducts.tell (conducts : Conducts R allowed) (licence : Run.Licence R) (event : Event)
    {l : L} (r : Run E P) (h : allowed l) :
    allowed (Listener.tell event l r).listener ∧ R r (Listener.tell event l r).run := by
  refine Listener.tell_maintains (fun event l r' hl hr => ?_)
    (fun _ _ hr _ => licence.trans _ _ _ hr (licence.record _ _)) event h (licence.refl r)
  apply ((conducts event l r' hl).imp _).imp_fail
  · exact fun _ _ h => ⟨h.1, licence.trans _ _ _ hr h.2⟩
  · exact fun _ _ h => ⟨h.1, licence.trans _ _ _ hr h.2⟩

end Conduct

/-! ## Rules -/

section Rules

variable {E P : Type} [Engine E] [Property P] {R : Run E P → Run E P → Prop} {permits : Action P → Prop}

/-- The operation changes a run only in such a way, whether it fails or not. -/
def RunM.Changes {α : Type} (R : Run E P → Run E P → Prop) (x : RunM E P α) : Prop :=
  ∀ r : Run E P, Ensures (· = r) x (fun _ => R r) fun _ => R r

namespace Action

omit [Engine E] [Property P] in
theorem changes_change {f : Run E P → Run E P} (h : ∀ r, R r (f r)) : RunM.Changes R (change f) := by
  rintro _ r rfl
  exact h r

omit [Engine E] [Property P] in
theorem changes_ask {f : Run E P → Bool × Run E P} (h : ∀ r, R r (f r).2) : RunM.Changes R (ask f) := by
  rintro _ r rfl
  exact h r

omit [Engine E] [Property P] in
theorem changes_look (licence : Run.Licence R) (f : Run E P → Json) : RunM.Changes R (look f) := by
  rintro _ r rfl
  exact licence.refl r

omit [Property P] in
theorem changes_isNew (h : ∀ r depths query, R r { r with depths := depths, lastQuery := query })
    (f : Bool → Json) : RunM.Changes R (do return f (← Run.isNew)) := by
  rintro _ r rfl
  simp only [bind, EStateM.bind]
  obtain ⟨_, depths, query, given, -⟩ | ⟨_, failed, -⟩ := Run.isNew_cases r
  · rw [given]
    exact h r depths query
  · rw [failed]
    exact h r r.depths r.lastQuery

theorem changes_stateDepth (licence : Run.Licence R) (state : StateId) :
    RunM.Changes R (perform (.stateDepth state)) := by
  rintro _ r rfl
  simp only [perform, EStateM.get_bind_apply]
  cases r.depths.get state <;> exact licence.refl r

end Action

/-- The deed is to fail, or one of these actions. -/
def Deed.Obeys (permits : Action P → Prop) : Deed P → Prop
  | .fail _ => True
  | .act _ action => permits action

/-- All that the listener's rules say is permitted. -/
def RuleListener.Obeys (permits : Action P → Prop) (l : RuleListener P) : Prop :=
  ∀ q ∈ l.rules, q.deed.Obeys permits

namespace RuleListener

/-- The run after the listener remarked on the event. -/
def remarked (l : RuleListener P) (event : Event) (r : Run E P) : Run E P :=
  match l.remark? event r with
  | some j => r.record (.remarked j)
  | none => r

/-- The remark comes first, then the rules are followed. -/
theorem hear_eq_follow (event : Event) (l : RuleListener P) (r : Run E P) :
    Listener.hear event (l, r) = resultOf (follow l.name event l.rules (l.remarked event r)).verdict
      ({ l with rules := (follow l.name event l.rules (l.remarked event r)).listener },
        (follow l.name event l.rules (l.remarked event r)).run) := by
  show hear event (l, r) = _
  simp only [hear, remarked]
  generalize follow (E := E) l.name event l.rules _ = told
  obtain ⟨verdict, rules, after⟩ := told
  cases verdict <;> rfl

variable (licence : Run.Licence R) (perform : ∀ action : Action P, permits action → RunM.Changes R action.perform)

include licence perform

theorem changes_carryOut (name : String) {deed : Deed P} (obeys : deed.Obeys permits) :
    RunM.Changes R (carryOut name deed) := by
  intro r
  cases deed with
  | fail reason => exact .throw fun _ same => same ▸ licence.refl _
  | act word action =>
    apply (perform action obeys r).bind
    exact fun answer => .modifying fun r' changed => licence.trans _ _ _ changed (licence.record _ r')

theorem follow_conducts (name : String) (event : Event) {qs : List (Rule P)}
    (obeys : ∀ q ∈ qs, q.deed.Obeys permits) (r : Run E P) :
    (∀ q ∈ (follow name event qs r).listener, q.deed.Obeys permits) ∧ R r (follow name event qs r).run := by
  induction qs generalizing r with
  | nil => exact ⟨obeys, licence.refl r⟩
  | cons q qs ih =>
    obtain ⟨first, others⟩ := List.forall_mem_cons.1 obeys
    obtain ⟨rest, passed⟩ := ih others r
    simp only [follow]
    split
    · split
      · have carried := changes_carryOut licence perform name first r r rfl
        cases result : carryOut name q.deed r with
        | error f r' =>
          rw [result] at carried
          exact ⟨List.forall_mem_cons.2 ⟨first, others⟩, carried⟩
        | ok _ r' =>
          -- The rules after this one see the run as it left it.
          rw [result] at carried
          obtain ⟨rest, passed⟩ := ih others r'
          exact ⟨List.forall_mem_cons.2 ⟨first, rest⟩, licence.trans _ _ _ carried passed⟩
      · exact ⟨List.forall_mem_cons.2 ⟨first, rest⟩, passed⟩
    · exact ⟨List.forall_mem_cons.2 ⟨first, rest⟩, passed⟩

/-- A listener with rules behaves as the actions in its rules do. -/
theorem conducts : Listener.Conducts R (RuleListener.Obeys permits) := by
  rintro event l r obeys _ rfl
  have remarked : R r (l.remarked event r) := by
    unfold RuleListener.remarked
    split
    · exact licence.record _ r
    · exact licence.refl r
  have followed := follow_conducts licence perform l.name event obeys (l.remarked event r)
  rw [hear_eq_follow]
  have after := And.intro followed.1 (licence.trans _ _ _ remarked followed.2)
  cases verdict : (follow l.name event l.rules (l.remarked event r)).verdict <;> exact after

end RuleListener

end Rules

end Statewalk
