import Statewalk.DepthTable

/-! # Histories of a depth table

A depth table stands for a finite map.  After any sequence of operations it tells of a state the depth
that was recorded for it last, unless all depths were forgotten since.  There is room for the ids below
`capacity`; to record a depth for a larger one is a fault.
-/

namespace Statewalk.DepthTable

/-- An operation that changes a table. -/
inductive Command where
  | set (state : StateId) (depth : Nat)
  | clear
deriving DecidableEq, Repr

/-- There is room for the state, and the depth is smaller than the largest word. -/
def Command.Fits : Command → Prop
  | .set s d => s < capacity ∧ d < wordLimit - 1
  | .clear => True

/-- Carries out an operation. -/
def perform (t : DepthTable) : Command → Except Fault DepthTable
  | .set s d => t.set s d
  | .clear => .ok t.clear

/-- Carries out operations one after the other. -/
def after (t : DepthTable) (history : List Command) : Except Fault DepthTable :=
  history.foldlM perform t

/-- The depth is the one that was recorded last for the state, and it was not forgotten since. -/
def Latest (history : List Command) (s : StateId) (d : Nat) : Prop :=
  ∃ before later, history = before ++ .set s d :: later ∧
    ∀ c ∈ later, c ≠ .clear ∧ ∀ d', c ≠ .set s d'

variable {history : List Command} {t u : DepthTable} {c : Command} {s : StateId} {d : Nat}

/-- The last operation decides, unless it has nothing to do with the state. -/
theorem latest_concat : Latest (history ++ [c]) s d ↔
    c = .set s d ∨ (c ≠ .clear ∧ ∀ d', c ≠ .set s d') ∧ Latest history s d := by
  constructor
  · rintro ⟨before, later, split, silent⟩
    rcases List.eq_nil_or_concat later with rfl | ⟨later, last, rfl⟩
    · exact .inl (List.cons.inj (List.append_inj' split rfl).2).1
    · rw [List.concat_eq_append] at split silent
      rw [← List.cons_append, ← List.append_assoc] at split
      obtain ⟨rfl, same⟩ := List.append_inj' split rfl
      obtain rfl := (List.cons.inj same).1
      exact .inr ⟨silent c (by simp), before, later, rfl, fun e he => silent e (List.mem_append_left _ he)⟩
  · rintro (rfl | ⟨other, before, later, rfl, silent⟩)
    · exact ⟨history, [], rfl, fun _ h => absurd h List.not_mem_nil⟩
    · refine ⟨before, later ++ [c], by simp, fun e he => ?_⟩
      rcases List.mem_append.1 he with earlier | last
      · exact silent e earlier
      · exact List.mem_singleton.1 last ▸ other

theorem Command.Fits.exists_set (fits : (Command.set s d).Fits) (t : DepthTable) :
    ∃ u, t.set s d = .ok u :=
  t.exists_set fits.1 (Nat.add_lt_of_lt_sub fits.2)

/-- One operation changes what is told of a state as it changes what was recorded last. -/
theorem exists_perform (h : ∀ s d, t.find? s = some d ↔ Latest history s d) (fits : c.Fits) :
    ∃ u, t.perform c = .ok u ∧ ∀ s d, u.find? s = some d ↔ Latest (history ++ [c]) s d := by
  cases c with
  | set q k =>
    obtain ⟨u, done⟩ := fits.exists_set t
    refine ⟨u, done, fun s d => ?_⟩
    rw [latest_concat, ← h, find?_set done]
    by_cases same : s = q
    · subst same
      simp
    · simp [same, Ne.symm same]
  | clear => exact ⟨t.clear, rfl, fun s d => by simp [latest_concat]⟩

theorem exists_after (t : DepthTable) (earlier : List Command)
    (h : ∀ s d, t.find? s = some d ↔ Latest earlier s d) (fits : ∀ c ∈ history, c.Fits) :
    ∃ u, t.after history = .ok u ∧ ∀ s d, u.find? s = some d ↔ Latest (earlier ++ history) s d := by
  -- The table stands for the operations so far, and takes in the next one.
  induction history generalizing t earlier with
  | nil => exact ⟨t, rfl, by simpa using h⟩
  | cons c history ih =>
    obtain ⟨first, rest⟩ := List.forall_mem_cons.1 fits
    obtain ⟨u, done, told⟩ := exists_perform h first
    obtain ⟨v, later, toldLater⟩ := ih u (earlier ++ [c]) told rest
    refine ⟨v, ?_, by simpa using toldLater⟩
    rw [after, List.foldlM_cons, done]
    exact later

theorem get_eq_ok_iff : t.get s = .ok d ↔ t.find? s = some d := by
  unfold get
  cases t.find? s <;> simp

theorem get_eq_error_iff : t.get s = .error (.unvisited s) ↔ t.find? s = none := by
  unfold get
  cases t.find? s <;> simp

theorem contains_iff : t.contains s = true ↔ ∃ d, t.get s = .ok d := by
  simp only [contains_eq, Option.isSome_iff_exists, get_eq_ok_iff]

/-- After any sequence of operations an empty table tells of each state the depth that was recorded for it
    last, and fails for a state without one.  To record one more depth changes no other answer, and is a
    fault for a state that there is no room for. -/
theorem history_tells_depths (history : List Command) (fits : ∀ c ∈ history, c.Fits) :
    ∃ t, after {} history = .ok t ∧ ∀ s,
      (∀ d, t.get s = .ok d ↔ Latest history s d) ∧
      (t.get s = .error (.unvisited s) ↔ ∀ d, ¬ Latest history s d) ∧
      (t.contains s = true ↔ ∃ d, t.get s = .ok d) ∧
      (∀ d, (Command.set s d).Fits → ∃ u, t.set s d = .ok u ∧ u.get s = .ok d ∧
        ∀ q, q ≠ s → u.get q = t.get q ∧ u.contains q = t.contains q) ∧
      ∀ d, capacity ≤ s → s < wordLimit - 1 → t.set s d = .error .capacityOverflow := by
  obtain ⟨t, done, told⟩ := exists_after {} [] (by simp [Latest]) fits
  refine ⟨t, done, fun s => ⟨fun d => ?_, ?_, contains_iff, fun d room => ?_, fun d full word => ?_⟩⟩
  · rw [get_eq_ok_iff, told, List.nil_append]
  · rw [get_eq_error_iff, Option.eq_none_iff_forall_ne_some]
    simp only [ne_eq, told, List.nil_append]
  · obtain ⟨u, set⟩ := room.exists_set t
    refine ⟨u, set, ?_, fun q other => ?_⟩
    · rw [get_eq_ok_iff, find?_set set, if_pos rfl]
    · have same : u.find? q = t.find? q := by rw [find?_set set, if_neg other]
      simp only [get, contains_eq, same, and_self]
  · exact t.set_of_capacity_le full (Nat.add_lt_of_lt_sub word)

/-- The depth of state 4 is recorded twice; state 2 lies below it and has none. -/
theorem sparse_history_tells_depths :
    let history := [.set 7 3, .clear, .set 4 1, .set 4 0]
    ∃ t, after {} history = .ok t ∧ t.get 4 = .ok 0 ∧ t.get 2 = .error (.unvisited 2) := by
  intro history
  have fits : ∀ c ∈ history, c.Fits := by simp [history, Command.Fits, wordLimit, capacity]
  obtain ⟨t, done, told⟩ := history_tells_depths history fits
  have recorded : Latest history 4 0 := ⟨[.set 7 3, .clear, .set 4 1], [], rfl, by simp⟩
  refine ⟨t, done, ((told 4).1 0).2 recorded, (told 2).2.1.2 ?_⟩
  rintro d ⟨before, later, split, -⟩
  have member : Command.set 2 d ∈ history := split ▸ by simp
  simp [history] at member

/-- The first id that there is no room for is a word, and so is its successor; its depth is not recorded. -/
theorem first_id_without_room_unrecorded :
    1152921504606846975 < wordLimit - 1 ∧
      after {} [.set 1152921504606846975 0] = .error .capacityOverflow ∧
      Latest [.set 1152921504606846975 0] 1152921504606846975 0 ∧
      ¬ ∃ t, after {} [.set 1152921504606846975 0] = .ok t ∧ t.get 1152921504606846975 = .ok 0 := by
  have full : after {} [.set 1152921504606846975 0] = .error .capacityOverflow := by
    rw [after, List.foldlM_cons, perform, set_of_capacity_le {} (by decide) (by decide)]
    rfl
  refine ⟨by decide, full, ⟨[], [], rfl, by simp⟩, ?_⟩
  rintro ⟨t, done, -⟩
  rw [full] at done
  cases done

end Statewalk.DepthTable
