import Statewalk.Session.Action
import Statewalk.Statistics

/-! # Rule listeners

A listener that remarks on the events it is told of and then follows its rules in order.  A rule
fires on an event, if need be only in one state, at one depth or for some of its matches, and
either performs an action or fails.
-/

namespace Statewalk

/-- What a rule does when it fires. -/
inductive Deed (P : Type) where
  /-- Fails with a text. -/
  | fail (reason : String)
  /-- Performs an action and remarks on its answer under a word. -/
  | act (word : String) (action : Action P)

/-- A rule of a listener. -/
structure Rule (P : Type) where
  event : Event
  state : Option StateId := none
  depth : Option Nat := none
  /-- Fires only on the match with this number. -/
  nth : Option Nat := none
  /-- Fires only on matches after the first so many. -/
  after : Option Nat := none
  deed : Deed P
  /-- Matches so far. -/
  matched : Nat := 0

/-- How much a listener remarks on events. -/
inductive Verbosity where
  | silent
  | brief
  | full
deriving DecidableEq, Repr

/-- A listener with rules. -/
structure RuleListener (P : Type) where
  name : String
  verbosity : Verbosity := .brief
  rules : List (Rule P) := []

instance {P : Type} : Named (RuleListener P) where
  name l := l.name

namespace RuleListener

variable {E P : Type} [Engine E] [Property P]

/-- The remark on an event, if there is one. -/
def remark? (l : RuleListener P) (event : Event) (r : Run E P) : Option Json :=
  let brief : List Json :=
    [.text l.name, .text event.label, .nat r.depth, .nat (Engine.stateId r.engine)]
  match l.verbosity with
  | .silent => none
  | .brief => some (.arr brief)
  | .full => some (.arr (brief ++
      [.bool r.done, .nat r.violations.length, .bool r.atViolation,
        .nullable .text r.lastConstraint, .nat (Engine.pathLength r.engine),
        .bool (Engine.occurred r.engine)]))

/-- The rule is about this event in this state at this depth. -/
def concerns (event : Event) (r : Run E P) (q : Rule P) : Bool :=
  q.event = event && q.state.all (· = Engine.stateId r.engine) && q.depth.all (· = r.depth)

/-- The rule fires on the match with this number. -/
def fires (number : Nat) (q : Rule P) : Bool :=
  q.nth.all (· = number) && q.after.all (· < number)

/-- Does what a rule says. -/
def carryOut (name : String) : Deed P → RunM E P Unit
  | .fail reason => throw (.complaint reason)
  | .act word action => do
    let answer ← action.perform
    modify (Run.record (.remarked (.arr [.text name, .text "->", .text word, answer])))

/-- Follows rules in order; those after one that fails are not looked at. -/
def follow (name : String) (event : Event) :
    List (Rule P) → Run E P → Listener.Told (List (Rule P)) E P
  | [], r => { verdict := .ok (), listener := [], run := r }
  | q :: qs, r =>
    if concerns event r q then
      let q := { q with matched := q.matched + 1 }
      if fires q.matched q then
        match carryOut name q.deed r with
        | .error f r => { verdict := .error f, listener := q :: qs, run := r }
        | .ok _ r =>
          let rest := follow name event qs r
          { rest with listener := q :: rest.listener }
      else
        let rest := follow name event qs r
        { rest with listener := q :: rest.listener }
    else
      let rest := follow name event qs r
      { rest with listener := q :: rest.listener }

/-- Remarks on the event and follows the rules. -/
def hear (event : Event) : EStateM Failure (RuleListener P × Run E P) Unit := fun (l, r) =>
  let r := match l.remark? event r with
    | some j => r.record (.remarked j)
    | none => r
  let told := follow l.name event l.rules r
  let l := { l with rules := told.listener }
  match told.verdict with
  | .ok _ => .ok () (l, told.run)
  | .error f => .error f (l, told.run)

instance : Listener E P (RuleListener P) where
  hear := hear

end RuleListener

end Statewalk
