/-! # Properties

A property is a condition that is checked after every step of a search.  It may keep state between
checks; how it is checked is stated beside `Run`, which it looks at.
-/

namespace Statewalk

/-- Something with a name. -/
class Named (α : Type) where
  name : α → String

/-- What a property says of itself. -/
class Property (P : Type) extends Named P where
  /-- Forgets what was gathered while checking. -/
  reset : P → P
  /-- What is known of the last violation. -/
  message : P → Option String

/-- A property that belongs to a search, under a key that no other property of it ever has. -/
structure Watched (P : Type) where
  key : Nat
  property : P

end Statewalk
