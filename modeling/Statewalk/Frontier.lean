/-! # Frontiers

The queue of a best-first search: entries in ascending order of their keys.  A key is a priority
and the number of the entry, so that of two entries with one priority the older comes first.
-/

namespace Statewalk

/-- What entries are ordered by: first the priority, then the age. -/
structure Key where
  priority : Int
  number : Nat
deriving DecidableEq, Repr

namespace Key

/-- The order of keys. -/
def before (a b : Key) : Bool :=
  a.priority < b.priority || (a.priority = b.priority && a.number < b.number)

end Key

/-- A queue of entries in ascending order of their keys. -/
structure Frontier (α : Type) where
  entries : List (Key × α) := []

namespace Frontier

variable {α : Type}

/-- The number of entries. -/
def size (f : Frontier α) : Nat :=
  f.entries.length

/-- Puts an entry before the first one with a greater key. -/
def insertInto (k : Key) (a : α) : List (Key × α) → List (Key × α)
  | [] => [(k, a)]
  | e :: es => if k.before e.1 then (k, a) :: e :: es else e :: insertInto k a es

/-- Adds an entry. -/
def insert (k : Key) (a : α) (f : Frontier α) : Frontier α :=
  { entries := insertInto k a f.entries }

/-- Takes out the entry with the least key. -/
def pop? (f : Frontier α) : Option (α × Frontier α) :=
  match f.entries with
  | [] => none
  | e :: es => some (e.2, { entries := es })

/-- The greatest key. -/
def worst? (f : Frontier α) : Option Key :=
  f.entries.getLast?.map (·.1)

/-- Drops the entry with the greatest key. -/
def dropWorst (f : Frontier α) : Frontier α :=
  { entries := f.entries.dropLast }

/-- The frontier is at its limit, if it has one. -/
def isFull (limit : Option Nat) (f : Frontier α) : Bool :=
  match limit with
  | some n => n ≤ f.size
  | none => false

/-- Adds an entry under a limit: at the limit it takes the place of the worst entry if it comes
    before it, and is dropped otherwise. -/
def offer? (limit : Option Nat) (k : Key) (a : α) (f : Frontier α) : Option (Frontier α) :=
  if f.isFull limit then
    match f.worst? with
    | some worst => if k.before worst then some (f.dropWorst.insert k a) else none
    | none => none
  else some (f.insert k a)

/-! ## Laws -/

@[simp] theorem size_dropWorst (f : Frontier α) : f.dropWorst.size = f.size - 1 := by
  simp [dropWorst, size]

end Frontier

end Statewalk
