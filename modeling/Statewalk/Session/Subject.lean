import Statewalk.Property.Deadlock
import Statewalk.Property.Forbidden
import Statewalk.Text.Quoted

/-! # The properties of a session

Forbidden states, deadlocks, conditions on the run, and a property that holds a number of times.
-/

namespace Statewalk

/-- A condition on the run. -/
inductive Condition where
  | always
  | never
  | stateNot (n : Nat)
  | stateBelow (n : Nat)
  | depthBelow (n : Nat)
  | pathBelow (n : Nat)
  | errorsBelow (n : Nat)
  | notEnd
  | moved
  | lastThreadNot (n : Nat)
deriving DecidableEq, Repr

/-- The condition holds now. -/
def Condition.holds {E P : Type} [Engine E] (r : Run E P) : Condition → Bool
  | .always => true
  | .never => false
  | .stateNot n => Engine.stateId r.engine ≠ n
  | .stateBelow n => Engine.stateId r.engine < n
  | .depthBelow n => r.depth < n
  | .pathBelow n => Engine.pathLength r.engine < n
  | .errorsBelow n => r.violations.length < n
  | .notEnd => !Engine.isEnd r.engine
  | .moved => Engine.occurred r.engine
  | .lastThreadNot n =>
    match (Engine.path r.engine).last? with
    | some t => t.thread ≠ n
    | none => true

/-- A property of a session. -/
inductive Subject where
  | forbidden (p : ForbiddenStates)
  | noDeadlock (p : NoDeadlock)
  /-- Holds for the first `limit` checks. -/
  | counting (name : String) (limit count : Nat)
  | predicate (name : String) (condition : Condition)

namespace Subject

/-- The name of a property. -/
def name : Subject → String
  | .forbidden p => Named.name p
  | .noDeadlock p => Named.name p
  | .counting name _ _ => name
  | .predicate name _ => name

/-- What is known of the last violation. -/
def message : Subject → Option String
  | .forbidden p => p.message
  | .noDeadlock p => p.message
  | .counting _ _ count => some ("checks: " ++ toString count)
  | .predicate _ _ => none

/-- Forgets what was gathered while checking. -/
def reset : Subject → Subject
  | .forbidden p => .forbidden (Property.reset p)
  | .noDeadlock p => .noDeadlock (Property.reset p)
  | .counting name limit _ => .counting name limit 0
  | .predicate name c => .predicate name c

/-- The check of a property. -/
def check {E P : Type} [Engine E] (r : Run E P) : Subject → Bool × Subject
  | .forbidden p => (p.checkState (Engine.stateId r.engine)).map id .forbidden
  | .noDeadlock p => (p.checkThreads (Engine.threads r.engine)).map id .noDeadlock
  | .counting name limit count => (count + 1 ≤ limit, .counting name limit (count + 1))
  | .predicate name c => (c.holds r, .predicate name c)

instance : Property Subject where
  name := name
  reset := reset
  message := message

instance {E : Type} [Engine E] : Checkable E Subject where
  check := check

/-! ## Descriptions -/

/-- A set of numbers in ascending order. -/
def ascending (ns : List Nat) : List Nat :=
  (ns.mergeSort (· ≤ ·)).eraseDups

/-- A description of a property and its state. -/
def describe : Subject → String
  | .forbidden p =>
    let hit := match p.hit with
      | some s => "Some(" ++ toString s ++ ")"
      | none => "None"
    "ForbiddenStates \x7b states: \x7b" ++ ", ".intercalate ((ascending p.states).map toString) ++
      "\x7d, hit: " ++ hit ++ " \x7d"
  | .noDeadlock p =>
    "NoDeadlock \x7b blocked: [" ++ ", ".intercalate (p.blocked.map Text.quoted) ++ "] \x7d"
  | .counting name limit count =>
    "Counting \x7b name: " ++ Text.quoted name ++ ", limit: " ++ toString limit ++ ", count: " ++
      toString count ++ " \x7d"
  | .predicate name _ => "PredicateProperty \x7b name: " ++ Text.quoted name ++ ", .. \x7d"

end Subject

end Statewalk
