import Statewalk.Proofs.Expeditions
import Statewalk.Strategy.DepthFirst

/-! # What only announcements change

Apart from announcements, the operations of a search leave its listeners, its tallies, what was
announced and what listeners remarked alone.  A property of these that every announcement keeps is
therefore kept by whole runs.
-/

namespace Statewalk

variable {H E P L α β : Type}

/-- What listeners and publishers had to say, in order. -/
def Journal.remarks (j : Journal) : List Json :=
  j.entries.filterMap Entry.remark?

@[simp] theorem Journal.remarks_record (e : Entry) (j : Journal) :
    (j.record e).remarks = j.remarks ++ e.remark?.toList := by
  cases h : e.remark? <;> simp [remarks, h]

/-- The second run has the tallies, the announcements and the remarks of the first. -/
structure Run.Silent (r r' : Run E P) : Prop where
  tallies : r'.tallies = r.tallies := by rfl
  bulletins : r'.journal.bulletins = r.journal.bulletins := by rfl
  remarks : r'.journal.remarks = r.journal.remarks := by rfl

namespace Run.Silent

variable {r r' r'' : Run E P}

theorem trans (h : Silent r r') (h' : Silent r' r'') : Silent r r'' :=
  ⟨h'.tallies.trans h.tallies, h'.bulletins.trans h.bulletins, h'.remarks.trans h.remarks⟩

theorem record {e : Entry} (r : Run E P) (unannounced : e.bulletin? = none)
    (unremarked : e.remark? = none) : Silent r (r.record e) :=
  { bulletins := by simp [Run.record, unannounced], remarks := by simp [Run.record, unremarked] }

theorem hasMemory (r : Run E P) : Silent r r.hasMemory.2 :=
  kept_hasMemory (J := Silent r) (fun _ _ h => h.trans {}) (fun r' _ _ h => h.trans (record r' rfl rfl))
    (fun r' _ h => h.trans (record r' rfl rfl)) {}

theorem endsAtViolation (r : Run E P) : Silent r r.endsAtViolation.2 := by
  unfold Run.endsAtViolation
  split
  · split <;> exact ⟨rfl, rfl, rfl⟩
  · exact ⟨rfl, rfl, rfl⟩

variable [Engine E]

theorem isNew {answer : Bool} (h : Run.isNew r = .ok answer r') : Silent r r' := by
  obtain ⟨_, depths, query, asked, -⟩ | ⟨f, failed, -⟩ := isNew_cases r
  · rw [asked] at h
    cases h
    exact ⟨rfl, rfl, rfl⟩
  · rw [failed] at h
    cases h

theorem stepForward (r : Run E P) : Silent r r.stepForward.2 := by
  rw [stepForward_eq]
  exact {
    bulletins := bulletins_stepJournal r r.journal
    remarks := filterMap_stepJournal (fun _ _ _ => rfl) (fun _ _ _ => rfl) r r.journal }

theorem checkProperties [Checkable E P] (r : Run E P) : Silent r r.checkProperties.2 := by
  unfold Run.checkProperties
  split
  rename_i ps violated _
  cases violated with
  | none => exact ⟨rfl, rfl, rfl⟩
  | some w =>
    exact {
      bulletins := by simp [violate, Run.record, Entry.bulletin?]
      remarks := by simp [violate, Run.record, Entry.remark?] }

end Run.Silent

namespace Search

/-- The second search differs from the first in nothing that listeners hold or that was announced. -/
structure Quiet (s t : Search E P L) : Prop where
  listeners : t.listeners = s.listeners := by rfl
  reporter : t.reporter = s.reporter := by rfl
  run : s.run.Silent t.run

/-- If it succeeds, the operation keeps the invariant. -/
def Keeps (I : Search E P L → Prop) (x : SearchM E P L α) : Prop :=
  Ensures I x (fun _ => I) fun _ _ => True

variable {I : Search E P L → Prop}

namespace Keeps

theorem pure (a : α) : Keeps I (Pure.pure a) :=
  Ensures.pure fun _ => id

theorem bind {x : SearchM E P L α} {f : α → SearchM E P L β} (hx : Keeps I x) (hf : ∀ a, Keeps I (f a)) :
    Keeps I (x >>= f) :=
  Ensures.bind hx hf

end Keeps

section Quiet

variable (quiet : ∀ s t, I s → Quiet s t → I t)

include quiet

theorem keeps_change {f : Run E P → Run E P} (silent : ∀ r : Run E P, r.Silent (f r)) : Keeps I (change f) :=
  fun s h => quiet s _ h ⟨rfl, rfl, silent s.run⟩

theorem keeps_update {f : Run E P → α × Run E P} (silent : ∀ r : Run E P, r.Silent (f r).2) :
    Keeps I (update f) :=
  fun s h => quiet s _ h ⟨rfl, rfl, silent s.run⟩

theorem keeps_onRun {x : RunM E P α} (silent : ∀ r a r', x r = .ok a r' → r.Silent r') :
    Keeps I (onRun x) := by
  intro s h
  unfold onRun
  cases done : x s.run with
  | ok a r => exact quiet s _ h ⟨rfl, rfl, silent _ _ _ done⟩
  | error f r => trivial

theorem keeps_descend : Keeps I (onRun Run.descend) := by
  apply keeps_onRun quiet
  intro r a r' done
  rw [Run.descend_apply] at done
  cases sum : addWords r.depth 1 with
  | ok d =>
    rw [sum] at done
    cases done
    exact ⟨rfl, rfl, rfl⟩
  | error f =>
    rw [sum] at done
    cases done

theorem keeps_ascend : Keeps I (onRun Run.ascend) := by
  apply keeps_onRun quiet
  intro r a r' done
  rw [Run.ascend_apply] at done
  split at done
  · cases done
  · cases done
    exact ⟨rfl, rfl, rfl⟩

variable [Engine E]

theorem keeps_restore (snapshot : Snapshot (Engine.Saved E)) (strategy : String) :
    Keeps I (restore (P := P) (L := L) snapshot strategy) := by
  refine Keeps.bind (keeps_change quiet fun _ => ⟨rfl, rfl, rfl⟩) ?_
  intro _
  apply Keeps.bind
  · apply keeps_update quiet
    exact fun r => {
      bulletins := by simp [Run.stepTo, Run.record, Entry.bulletin?]
      remarks := by simp [Run.stepTo, Run.record, Entry.remark?] }
  intro accepted
  split
  · exact keeps_change quiet fun _ => ⟨rfl, rfl, rfl⟩
  · exact .throw fun _ _ => trivial

end Quiet

/-- The invariant is about what listeners hold and what was announced, and every announcement after
    the first keeps it. -/
structure Conserved [Engine E] [Listener E P L] (I : Search E P L → Prop) : Prop where
  quiet : ∀ s t, I s → Quiet s t → I t
  announced : ∀ event, event ≠ .searchStarted → Keeps I (announce event)

end Search

end Statewalk
