import Mathlib.Algebra.BigOperators.Group.List.Basic
import Mathlib.Algebra.Ring.Nat
import Mathlib.Data.List.Induction
import Mathlib.Data.List.Sort
import Statewalk.Frontier

/-! # Entries of a frontier

What the operations on the queue of a best-first search do to its entries.  To insert an entry is
`List.orderedInsert` for the order of the keys.
-/

namespace Statewalk

namespace Frontier

variable {α : Type} {f f' : Frontier α} {k : Key} {a : α} {e : Key × α} {es : List (Key × α)}
  {limit : Option Nat}

/-! ## Insertion -/

/-- The order of the entries, by their keys. -/
abbrev Precedes (e e' : Key × α) : Prop := e.1.before e'.1 = true

theorem insertInto_eq_orderedInsert (k : Key) (a : α) (es : List (Key × α)) :
    insertInto k a es = es.orderedInsert Precedes (k, a) := by
  induction es with
  | nil => rfl
  | cons e es ih => rw [insertInto, List.orderedInsert_cons, ih]

theorem insertInto_perm (k : Key) (a : α) (es : List (Key × α)) :
    (insertInto k a es).Perm ((k, a) :: es) :=
  insertInto_eq_orderedInsert k a es ▸ List.perm_orderedInsert Precedes (k, a) es

theorem mem_insertInto : e ∈ insertInto k a es ↔ e = (k, a) ∨ e ∈ es := by
  rw [insertInto_eq_orderedInsert, List.mem_orderedInsert]

@[simp] theorem size_insert (k : Key) (a : α) (f : Frontier α) : (f.insert k a).size = f.size + 1 := by
  rw [size, insert, insertInto_eq_orderedInsert, List.orderedInsert_length, size]

/-! ## Offers, and taking out the best -/

/-- An entry that is taken is inserted, in the place of the worst one if the queue is full. -/
theorem eq_of_offer? (offered : f.offer? limit k a = some f') :
    f' = f.insert k a ∨ f' = f.dropWorst.insert k a := by
  unfold offer? at offered
  split at offered
  · split at offered
    · split at offered
      · cases offered
        exact .inr rfl
      · cases offered
    · cases offered
  · cases offered
    exact .inl rfl

theorem mem_of_offer? (offered : f.offer? limit k a = some f')
    (member : e ∈ f'.entries) : e = (k, a) ∨ e ∈ f.entries := by
  obtain rfl | rfl := eq_of_offer? offered
  · exact mem_insertInto.1 member
  · exact (mem_insertInto.1 member).imp_right fun old => List.dropLast_subset _ old

theorem size_of_offer? (offered : f.offer? limit k a = some f') : f'.size ≤ f.size + 1 := by
  obtain rfl | rfl := eq_of_offer? offered
  · rw [size_insert]
  · rw [size_insert, size_dropWorst]
    omega

theorem entries_of_pop? (popped : f.pop? = some (a, f')) : ∃ k, f.entries = (k, a) :: f'.entries := by
  unfold pop? at popped
  cases entries : f.entries with
  | nil => simp [entries] at popped
  | cons e es =>
    simp only [entries, Option.some.injEq, Prod.mk.injEq] at popped
    obtain ⟨rfl, rfl⟩ := popped
    exact ⟨e.1, rfl⟩

theorem mem_of_pop? (popped : f.pop? = some (a, f')) :
    (∃ k, (k, a) ∈ f.entries) ∧ f'.entries ⊆ f.entries ∧ f.size = f'.size + 1 := by
  obtain ⟨k, entries⟩ := entries_of_pop? popped
  rw [size, entries]
  exact ⟨⟨k, List.mem_cons_self⟩, List.subset_cons_self _ _, rfl⟩

theorem entries_of_pop?_eq_none (popped : f.pop? = none) : f.entries = [] := by
  unfold pop? at popped
  split at popped
  · assumption
  · cases popped

/-- What all entries weigh together. -/
def load (weight : α → Nat) (f : Frontier α) : Nat :=
  (f.entries.map fun e => weight e.2).sum

theorem load_insert (weight : α → Nat) : (f.insert k a).load weight = weight a + f.load weight := by
  have sums := ((insertInto_perm k a f.entries).map fun e : Key × α => weight e.2).sum_eq
  exact sums.trans List.sum_cons

theorem load_dropWorst_le (weight : α → Nat) : f.dropWorst.load weight ≤ f.load weight := by
  unfold load dropWorst
  cases entries : f.entries using List.reverseRecOn with
  | nil => simp
  | append_singleton es e => simp

theorem load_of_offer? (weight : α → Nat) (offered : f.offer? limit k a = some f') :
    f'.load weight ≤ f.load weight + weight a := by
  have dropped := load_dropWorst_le (f := f) weight
  obtain rfl | rfl := eq_of_offer? offered <;> rw [load_insert] <;> omega

theorem load_of_pop? (weight : α → Nat) (popped : f.pop? = some (a, f')) :
    f.load weight = weight a + f'.load weight := by
  obtain ⟨k, entries⟩ := entries_of_pop? popped
  simp [load, entries]

/-- A queue of one is empty after the best was taken out. -/
theorem entries_of_pop?_eq_some (single : f.size ≤ 1) (popped : f.pop? = some (a, f')) :
    f'.entries = [] := by
  obtain ⟨-, -, smaller⟩ := mem_of_pop? popped
  have size : f'.size = f'.entries.length := rfl
  exact List.length_eq_zero_iff.1 (by omega)

end Frontier

end Statewalk
