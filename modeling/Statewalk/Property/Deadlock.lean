import Statewalk.Run

/-! # Deadlocks

A property that is violated when there are threads, none of them can run and not all of them have
terminated.
-/

namespace Statewalk

/-- The names of the threads that were stuck at the last violation. -/
structure NoDeadlock where
  blocked : List String := []
deriving DecidableEq, Repr

namespace NoDeadlock

/-- The check of a thread list. -/
def checkThreads (l : ThreadList) (p : NoDeadlock) : Bool × NoDeadlock :=
  let live := l.threads.filter (·.status ≠ .terminated)
  if live.isEmpty || 0 < l.runnableCount then (true, p)
  else (false, { blocked := live.map (·.name) })

/-- What is known of the last violation. -/
def message (p : NoDeadlock) : Option String :=
  if p.blocked.isEmpty then none else some ("deadlock: " ++ ", ".intercalate p.blocked)

end NoDeadlock

instance : Property NoDeadlock where
  name _ := "no_deadlock"
  reset _ := {}
  message := NoDeadlock.message

instance {E : Type} [Engine E] : Checkable E NoDeadlock where
  check r p := p.checkThreads (Engine.threads r.engine)

end Statewalk
