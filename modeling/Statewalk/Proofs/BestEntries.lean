import Statewalk.Proofs.Frontiers

/-! # The best entries

A queue under a limit is offered entries one by one.  `Frontier.best` is what a queue would hold that saw all
of them at once: they are sorted, and the first of them are kept.  Both come to the same, in whatever order
the entries are offered.
-/

namespace Statewalk

namespace Key

variable {k l m : Key}

theorem before_trans (h : k.before l = true) (h' : l.before m = true) : k.before m = true := by
  simp only [before, Bool.or_eq_true, Bool.and_eq_true, decide_eq_true_eq] at *
  omega

theorem not_before_of_before (h : k.before l = true) : l.before k = false := by
  simp only [before, Bool.or_eq_true, Bool.and_eq_true, decide_eq_true_eq, Bool.or_eq_false_iff,
    Bool.and_eq_false_iff, decide_eq_false_iff_not] at *
  omega

/-- Of two keys with different numbers one comes first. -/
theorem before_of_not_before (h : l.before k = false) (other : l.number ≠ k.number) : k.before l = true := by
  simp only [before, Bool.or_eq_true, Bool.and_eq_true, decide_eq_true_eq, Bool.or_eq_false_iff,
    Bool.and_eq_false_iff, decide_eq_false_iff_not] at *
  omega

/-- A later key comes first only with a smaller priority. -/
theorem before_iff_of_number_lt (later : l.number < k.number) :
    k.before l = true ↔ k.priority < l.priority := by
  simp only [before, Bool.or_eq_true, Bool.and_eq_true, decide_eq_true_eq]
  omega

end Key

/-- What becomes of an entry that is offered to a queue. -/
inductive Fate where
  /-- There was room for it. -/
  | added
  /-- It took the place of the worst entry. -/
  | displaced
  /-- It lost against a full queue. -/
  | refused
deriving DecidableEq

namespace Frontier

variable {α : Type} {limit : Option Nat} {k : Key} {a : α} {e : Key × α} {es es' : List (Key × α)}
  {f : Frontier α}

/-! ## Ascending entries -/

/-- The entries are in ascending order of their keys, all of which are different. -/
def Ascending (es : List (Key × α)) : Prop :=
  es.Pairwise fun e e' => e.1.before e'.1 = true

/-- No two entries have the same number. -/
def Numbered (es : List (Key × α)) : Prop :=
  es.Pairwise fun e e' => e.1.number ≠ e'.1.number

theorem Ascending.nodup_keys (h : Ascending es) : (es.map (·.1)).Nodup := by
  apply List.pairwise_map.2
  apply h.imp
  intro e e' before same
  have after := Key.not_before_of_before before
  rw [← same] at after before
  rw [after] at before
  cases before

theorem Ascending.insertInto (h : Ascending es) (fresh : ∀ e ∈ es, e.1.number ≠ k.number) :
    Ascending (insertInto k a es) := by
  induction es with
  | nil => exact List.pairwise_singleton _ _
  | cons e es ih =>
    obtain ⟨least, others⟩ := List.pairwise_cons.1 h
    obtain ⟨other, fresh⟩ := List.forall_mem_cons.1 fresh
    cases before : k.before e.1 with
    | true =>
      rw [Frontier.insertInto, if_pos before]
      refine List.pairwise_cons.2 ⟨List.forall_mem_cons.2 ⟨before, ?_⟩, h⟩
      exact fun e' member => Key.before_trans before (least e' member)
    | false =>
      rw [Frontier.insertInto, if_neg (by simp [before])]
      refine List.pairwise_cons.2 ⟨?_, ih others fresh⟩
      intro e' member
      rcases mem_insertInto.1 member with rfl | old
      · exact Key.before_of_not_before before other.symm
      · exact least e' old

/-! ## Sorting -/

/-- All entries, in ascending order. -/
def sorted (es : List (Key × α)) : List (Key × α) :=
  es.mergeSort fun e e' => !e'.1.before e.1

/-- The first entries, as many as the limit allows. -/
def within : Option Nat → List (Key × α) → List (Key × α)
  | some n, es => es.take n
  | none, es => es

/-- The best of the entries, as many as the limit allows. -/
def best (limit : Option Nat) (es : List (Key × α)) : List (Key × α) :=
  within limit (sorted es)

theorem ascending_sorted (distinct : Numbered es) : Ascending (sorted es) := by
  have perm : (sorted es).Perm es := List.mergeSort_perm _ _
  have apart : Numbered (sorted es) := perm.symm.pairwise distinct fun h => h.symm
  have ordered : (sorted es).Pairwise fun e e' => (!e'.1.before e.1) = true := by
    apply List.pairwise_mergeSort
    · intro e e' e'' h h'
      simp only [Bool.not_eq_true'] at h h' ⊢
      cases late : e''.1.before e.1 with
      | false => rfl
      | true =>
        simp only [Key.before, Bool.or_eq_true, Bool.and_eq_true, decide_eq_true_eq, Bool.or_eq_false_iff,
          Bool.and_eq_false_iff, decide_eq_false_iff_not] at h h' late
        omega
    · intro e e'
      cases before : e'.1.before e.1 with
      | false => simp
      | true => simp [Key.not_before_of_before before]
  apply (ordered.and apart).imp
  rintro e e' ⟨notAfter, other⟩
  exact Key.before_of_not_before (by simpa using notAfter) other.symm

/-- There is one way to put entries in ascending order. -/
theorem sorted_eq_of_perm (distinct : Numbered es) (ascending : Ascending es') (perm : es'.Perm es) :
    sorted es = es' := by
  have sorts : (sorted es).Perm es := List.mergeSort_perm _ _
  apply (sorts.trans perm.symm).eq_of_pairwise _ (ascending_sorted distinct) ascending
  intro e e' _ _ before after
  rw [Key.not_before_of_before before] at after
  cases after

theorem best_eq_of_perm (distinct : Numbered es) (perm : es'.Perm es) : best limit es' = best limit es := by
  have apart : Numbered es' := perm.symm.pairwise distinct fun h => h.symm
  have sorts : (sorted es).Perm es := List.mergeSort_perm _ _
  rw [best, best, sorted_eq_of_perm apart (ascending_sorted distinct) (sorts.trans perm.symm)]

theorem within_of_length_le (fits : ∀ n, limit = some n → es.length ≤ n) : within limit es = es := by
  cases limit with
  | none => rfl
  | some n => exact List.take_of_length_le (fits n rfl)

/-- A queue in order that keeps its limit holds the best of its entries. -/
theorem best_of_ascending (ascending : Ascending es) (distinct : Numbered es)
    (fits : ∀ n, limit = some n → es.length ≤ n) : best limit es = es := by
  rw [best, sorted_eq_of_perm distinct ascending (.refl es), within_of_length_le fits]

theorem length_best_le {n : Nat} : (best (some n) es).length ≤ n :=
  List.length_take_le _ _

theorem best_sublist : (best limit es).Sublist (sorted es) := by
  cases limit with
  | none => exact .refl _
  | some n => exact List.take_sublist n _

theorem mem_of_mem_best (member : e ∈ best limit es) : e ∈ es :=
  (List.mergeSort_perm es _).mem_iff.1 (best_sublist.subset member)

theorem ascending_best (distinct : Numbered es) : Ascending (best limit es) :=
  (ascending_sorted distinct).sublist best_sublist

theorem numbered_best (distinct : Numbered es) : Numbered (best limit es) := by
  have sorts : (sorted es).Perm es := List.mergeSort_perm _ _
  have apart : Numbered (sorted es) := sorts.symm.pairwise distinct fun h => h.symm
  exact apart.sublist best_sublist

/-! ## One entry more -/

/-- What is dropped beyond the limit is not missed when an entry is added. -/
theorem within_insertInto_within : within limit (insertInto k a (within limit es)) = within limit (insertInto k a es) := by
  cases limit with
  | none => rfl
  | some n =>
    simp only [within]
    induction es generalizing n with
    | nil => simp
    | cons e es ih =>
      cases n with
      | zero => simp
      | succ n =>
        simp only [List.take_succ_cons, insertInto]
        split
        · simp only [List.take_succ_cons]
          cases n with
          | zero => rfl
          | succ n => simp [List.take_take]
        · simp only [List.take_succ_cons, ih]

theorem best_cons_of_ascending (ascending : Ascending es) (distinct : Numbered ((k, a) :: es)) :
    best limit ((k, a) :: es) = within limit (insertInto k a es) := by
  have fresh : ∀ e ∈ es, e.1.number ≠ k.number := fun e member =>
    ((List.pairwise_cons.1 distinct).1 e member).symm
  rw [best, sorted_eq_of_perm distinct (ascending.insertInto fresh) (insertInto_perm k a es)]

/-- To add to the best entries is as good as to add to all. -/
theorem best_cons_best (distinct : Numbered ((k, a) :: es)) :
    best limit ((k, a) :: best limit es) = best limit ((k, a) :: es) := by
  obtain ⟨fresh, apart⟩ := List.pairwise_cons.1 distinct
  have sorts : (sorted es).Perm es := List.mergeSort_perm _ _
  have ascending := ascending_sorted apart
  have numbered : Numbered ((k, a) :: sorted es) := (sorts.symm.cons (k, a)).pairwise distinct fun h => h.symm
  calc best limit ((k, a) :: best limit es)
      = within limit (insertInto k a (best limit es)) :=
        best_cons_of_ascending (ascending_best apart) (numbered.sublist (best_sublist.cons_cons _))
    _ = within limit (insertInto k a (sorted es)) := within_insertInto_within
    _ = best limit ((k, a) :: sorted es) := (best_cons_of_ascending ascending numbered).symm
    _ = best limit ((k, a) :: es) := best_eq_of_perm distinct (sorts.cons _)

/-! ## Offers -/

/-- What becomes of an entry with this key. -/
def fate (limit : Option Nat) (k : Key) (f : Frontier α) : Fate :=
  if f.isFull limit then if f.worst?.any k.before then .displaced else .refused else .added

/-- The queue after an entry was offered. -/
def offered (limit : Option Nat) (e : Key × α) (f : Frontier α) : Frontier α :=
  (f.offer? limit e.1 e.2).getD f

theorem offer?_cases (limit : Option Nat) (e : Key × α) (f : Frontier α) :
    (f.fate limit e.1 = .added ∧ f.isFull limit = false ∧
      f.offer? limit e.1 e.2 = some (f.insert e.1 e.2)) ∨
    (∃ worst, f.fate limit e.1 = .displaced ∧ f.isFull limit = true ∧ f.worst? = some worst ∧
      e.1.before worst = true ∧ f.offer? limit e.1 e.2 = some (f.dropWorst.insert e.1 e.2)) ∨
    (f.fate limit e.1 = .refused ∧ f.isFull limit = true ∧
      (∀ worst, f.worst? = some worst → e.1.before worst = false) ∧ f.offer? limit e.1 e.2 = none) := by
  unfold fate offer?
  cases full : f.isFull limit with
  | false => exact .inl ⟨rfl, rfl, rfl⟩
  | true =>
    cases last : f.worst? with
    | none => exact .inr (.inr ⟨rfl, rfl, by simp, rfl⟩)
    | some worst =>
      cases before : e.1.before worst with
      | true => exact .inr (.inl ⟨worst, by simp [before], rfl, rfl, before, by simp [before]⟩)
      | false => exact .inr (.inr ⟨by simp [before], rfl, by simp [before], by simp [before]⟩)

/-- Where there is room an entry is added. -/
theorem offered_of_not_full (room : f.isFull limit = false) :
    f.fate limit e.1 = .added ∧ f.offered limit e = f.insert e.1 e.2 := by
  simp [fate, offered, offer?, room]

theorem insertInto_append (before : k.before e.1 = true) : insertInto k a (es ++ [e]) = insertInto k a es ++ [e] := by
  induction es with
  | nil => simp [insertInto, before]
  | cons e' es ih =>
    simp only [List.cons_append, insertInto]
    split
    · rfl
    · rw [ih, List.cons_append]

theorem insertInto_of_not_before (last : ∀ e ∈ es, k.before e.1 = false) : insertInto k a es = es ++ [(k, a)] := by
  induction es with
  | nil => rfl
  | cons e es ih =>
    obtain ⟨here, later⟩ := List.forall_mem_cons.1 last
    rw [insertInto, if_neg (by simp [here]), ih later, List.cons_append]

theorem worst?_eq_some {worst : Key} (last : f.worst? = some worst) :
    ∃ init e, f.entries = init ++ [e] ∧ e.1 = worst ∧ f.dropWorst.entries = init := by
  unfold worst? at last
  obtain ⟨e, final, rfl⟩ := Option.map_eq_some_iff.1 last
  obtain ⟨init, entries⟩ := List.getLast?_eq_some_iff.1 final
  exact ⟨init, e, entries, rfl, by simp [dropWorst, entries]⟩

/-- The queue grows only where there is room. -/
theorem size_offered (limit : Option Nat) (e : Key × α) (f : Frontier α) :
    (f.offered limit e).size = if f.fate limit e.1 = .added then f.size + 1 else f.size := by
  unfold offered
  obtain ⟨fate, -, taken⟩ | ⟨_, fate, -, last, -, taken⟩ | ⟨fate, -, -, taken⟩ := offer?_cases limit e f
  · rw [fate, taken, Option.getD_some, size_insert, if_pos rfl]
  · obtain ⟨init, final, entries, -, dropped⟩ := worst?_eq_some last
    rw [fate, taken, Option.getD_some, size_insert, if_neg (by simp)]
    simp [size, dropped, entries]
  · rw [fate, taken, Option.getD_none, if_neg (by simp)]

/-- What does not come before the worst entry comes before none. -/
theorem not_before_of_not_before_worst (ascending : Ascending f.entries)
    (worse : ∀ worst, f.worst? = some worst → k.before worst = false) :
    ∀ e ∈ f.entries, k.before e.1 = false := by
  cases last : f.worst? with
  | none =>
    simp only [worst?, Option.map_eq_none_iff, List.getLast?_eq_none_iff] at last
    simp [last]
  | some worst =>
    obtain ⟨init, final, entries, rfl, -⟩ := worst?_eq_some last
    rw [entries] at ascending ⊢
    intro e member
    cases List.mem_append.1 member with
    | inr here => exact List.mem_singleton.1 here ▸ worse _ last
    | inl earlier =>
      cases before : k.before e.1 with
      | false => rfl
      | true =>
        have less := (List.pairwise_append.1 ascending).2.2 e earlier final List.mem_cons_self
        rw [← worse _ last, Key.before_trans before less]

/-- A queue in order that keeps a limit holds the best of its entries and the one it is offered. -/
theorem entries_offered (ascending : Ascending f.entries) (distinct : Numbered (e :: f.entries))
    (fits : ∀ n, limit = some n → f.size ≤ n) :
    (f.offered limit e).entries = best limit (e :: f.entries) := by
  obtain ⟨k, a⟩ := e
  rw [best_cons_of_ascending ascending distinct]
  unfold offered
  obtain ⟨-, room, taken⟩ | ⟨worst, -, full, last, before, taken⟩ | ⟨-, full, worse, taken⟩ :=
    offer?_cases limit (k, a) f
  · -- There is room, so nothing is beyond the limit.
    rw [taken]
    refine (within_of_length_le ?_).symm
    rintro n rfl
    have room : ¬ n ≤ f.size := of_decide_eq_false room
    show (insertInto k a f.entries).length ≤ n
    rw [(insertInto_perm k a f.entries).length_eq]
    exact Nat.lt_of_not_le room
  · -- The worst entry is the one beyond the limit once the new one is in its place.
    obtain ⟨init, e, entries, rfl, dropped⟩ := worst?_eq_some last
    rw [taken, Option.getD_some]
    simp only [insert, dropped, entries, insertInto_append before]
    cases limit with
    | none => simp [isFull] at full
    | some n =>
      have size : f.size = init.length + 1 := by simp [Frontier.size, entries]
      have full : n ≤ f.size := of_decide_eq_true full
      have exact : (insertInto k a init).length = n := by
        rw [(insertInto_perm k a init).length_eq, List.length_cons, ← size]
        exact Nat.le_antisymm (fits n rfl) full
      rw [within, ← exact, List.take_left]
  · -- The new entry would come after all others, and be the one beyond the limit.
    rw [taken, Option.getD_none]
    cases limit with
    | none => simp [isFull] at full
    | some n =>
      have full : n ≤ f.size := of_decide_eq_true full
      have exact : f.entries.length = n := Nat.le_antisymm (fits n rfl) full
      have last := not_before_of_not_before_worst ascending worse
      rw [insertInto_of_not_before last, within, ← exact, List.take_left]

end Frontier

end Statewalk
