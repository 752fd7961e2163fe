import Statewalk.Failure

/-! # Depth tables

The depth recorded for each state.  State ids are dense, so the table is indexed by them and grows
up to the largest id that was recorded.  An entry is one more than a depth, so that 0 is left for the
states in between that have none.
-/

namespace Statewalk

/-- The largest number of entries: a table takes fewer than 2^63 bytes, and an entry is a word. -/
def DepthTable.capacity : Nat := Nat.pow 2 60 - 1

/-- The depth recorded for each state. -/
structure DepthTable where
  entries : Array Nat := #[]
  bounded : entries.size ≤ DepthTable.capacity := by exact Nat.zero_le _
deriving Repr

namespace DepthTable

/-- The depth recorded for a state, if any. -/
def find? (t : DepthTable) (s : StateId) : Option Nat :=
  match t.entries[s]? with
  | some (d + 1) => some d
  | _ => none

/-- The depth recorded for a state; to ask for one that has none is a failure. -/
def get (t : DepthTable) (s : StateId) : Except Failure Nat :=
  match t.find? s with
  | some d => .ok d
  | none => .error (.unvisited s)

/-- A depth is recorded for the state. -/
def contains (t : DepthTable) (s : StateId) : Bool :=
  t.entries[s]?.any (0 < ·)

/-- The table with room for a state. -/
def grow (t : DepthTable) (s : StateId) : Except Fault DepthTable :=
  if s < t.entries.size then .ok t
  else do
    let size ← addWords s 1
    if fits : size ≤ capacity then
      return { entries := t.entries ++ Array.replicate (size - t.entries.size) 0
               bounded := by have := t.bounded; simp; omega }
    else throw .capacityOverflow

/-- Records a depth for a state. -/
def set (t : DepthTable) (s : StateId) (d : Nat) : Except Fault DepthTable := do
  let grown ← t.grow s
  let entry ← addWords d 1
  return { entries := grown.entries.setIfInBounds s entry, bounded := by simpa using grown.bounded }

/-- Forgets all depths. -/
def clear (_ : DepthTable) : DepthTable :=
  {}

/-! ## Laws -/

@[simp] theorem find?_empty (s : StateId) : ({} : DepthTable).find? s = none := by
  simp [find?]

@[simp] theorem find?_clear (t : DepthTable) (s : StateId) : t.clear.find? s = none :=
  find?_empty s

theorem contains_eq (t : DepthTable) (s : StateId) : t.contains s = (t.find? s).isSome := by
  unfold contains find?
  rcases t.entries[s]? with _ | _ | d <;> rfl

variable {t u : DepthTable} {s : StateId} {d : Nat}

/-- Room for one more state changes no answer. -/
theorem grow_eq_ok (h : t.grow s = .ok u) : s < u.entries.size ∧ ∀ q, u.find? q = t.find? q := by
  unfold grow at h
  split at h
  · rename_i inside
    obtain rfl := Except.ok.inj h
    exact ⟨inside, fun _ => rfl⟩
  · by_cases word : s + 1 < wordLimit
    · rw [addWords, if_pos word] at h
      by_cases fits : s + 1 ≤ capacity
      · simp only [bind, Except.bind, fits, dif_pos] at h
        obtain rfl := Except.ok.inj h
        refine ⟨?_, fun q => ?_⟩
        · show s < (t.entries ++ Array.replicate (s + 1 - t.entries.size) 0).size
          rw [Array.size_append, Array.size_replicate]
          exact Nat.sub_le_iff_le_add'.1 (Nat.le_refl _)
        · unfold find?
          simp only [Array.getElem?_append]
          by_cases known : q < t.entries.size
          · rw [if_pos known]
          · rw [if_neg known, Array.getElem?_replicate, Array.getElem?_eq_none (Nat.le_of_not_lt known)]
            by_cases room : q - t.entries.size < s + 1 - t.entries.size <;> simp [room]
      · simp [bind, Except.bind, fits] at h
    · rw [addWords, if_neg word] at h
      cases h

theorem exists_grow (t : DepthTable) (h : s < capacity) : ∃ u, t.grow s = .ok u := by
  have word : s + 1 < wordLimit := Nat.lt_of_le_of_lt h (by decide)
  unfold grow
  split
  · exact ⟨t, rfl⟩
  · rw [addWords, if_pos word]
    exact ⟨_, dif_pos h⟩

theorem grow_of_capacity_le (t : DepthTable) (full : capacity ≤ s) (word : s + 1 < wordLimit) :
    t.grow s = .error .capacityOverflow := by
  have beyond : ¬ s < t.entries.size := Nat.not_lt.2 (Nat.le_trans t.bounded full)
  rw [grow, if_neg beyond, addWords, if_pos word]
  exact dif_neg (Nat.not_le.2 (Nat.lt_succ_of_le full))

/-- Recording a depth for a state changes the answer for this state only. -/
theorem find?_set (h : t.set s d = .ok u) (q : StateId) :
    u.find? q = if q = s then some d else t.find? q := by
  unfold set at h
  cases grown : t.grow s with
  | error f =>
    rw [grown] at h
    cases h
  | ok v =>
    obtain ⟨room, same⟩ := grow_eq_ok grown
    rw [grown, addWords] at h
    split at h
    · obtain rfl := Except.ok.inj h
      by_cases hq : q = s
      · subst hq
        simp [find?, room]
      · rw [if_neg hq, ← same]
        simp only [find?, Array.getElem?_setIfInBounds_ne (Ne.symm hq)]
    · cases h

theorem exists_set (t : DepthTable) (id : s < capacity) (depth : d + 1 < wordLimit) :
    ∃ u, t.set s d = .ok u := by
  obtain ⟨v, grown⟩ := t.exists_grow id
  rw [set, grown, addWords, if_pos depth]
  exact ⟨_, rfl⟩

theorem set_of_capacity_le (t : DepthTable) (full : capacity ≤ s) (word : s + 1 < wordLimit) :
    t.set s d = .error .capacityOverflow := by
  rw [set, t.grow_of_capacity_le full word]
  rfl

theorem fault_of_set {f : Fault} (h : t.set s d = .error f) : f = .additionOverflow ∨ f = .capacityOverflow := by
  by_cases full : capacity ≤ s
  · by_cases word : s + 1 < wordLimit
    · rw [t.set_of_capacity_le full word] at h
      exact .inr (Except.error.inj h).symm
    · have beyond : ¬ s < t.entries.size := Nat.not_lt.2 (Nat.le_trans t.bounded full)
      rw [set, grow, if_neg beyond, addWords, if_neg word] at h
      exact .inl (Except.error.inj h).symm
  · obtain ⟨v, grown⟩ := t.exists_grow (Nat.lt_of_not_le full)
    rw [set, grown, addWords] at h
    split at h
    · cases h
    · exact .inl (Except.error.inj h).symm

end DepthTable

end Statewalk
