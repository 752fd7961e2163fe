import Statewalk.Session.Observer
import Statewalk.Session.Stage
import Statewalk.Strategy.BestFirst
import Statewalk.Strategy.DepthFirst
import Statewalk.Strategy.RandomRestart
import Statewalk.Strategy.Replay
import Statewalk.Strategy.Simulation

/-! # The strategies of a session

A plan is a strategy with what it keeps between runs.
-/

namespace Statewalk

/-- A heuristic of a session. -/
inductive Preference where
  | breadthFirst
  | deepestFirst
  | random (h : RandomOrder)
  /-- Priorities by state; zero for all others. -/
  | table (priorities : List (StateId × Int))

instance : Named Preference where
  name
    | .breadthFirst => "breadth_first"
    | .deepestFirst => "deepest_first"
    | .random _ => "random"
    | .table _ => "table"

instance {E P : Type} [Engine E] : Heuristic Preference E P where
  priority r
    | .breadthFirst => ((Heuristic.priority r BreadthFirst.mk).1, .breadthFirst)
    | .deepestFirst => ((Heuristic.priority r DeepestFirst.mk).1, .deepestFirst)
    | .random h => (Heuristic.priority r h).map id .random
    | .table ps => (.ok ((ps.lookup (Engine.stateId r.engine)).getD 0), .table ps)

/-- A strategy with what it keeps between runs. -/
inductive Plan where
  | depthFirst
  | replay
  | simulation
  | randomRestart (pathLimit : Nat)
  | bestFirst (strategy : BestFirst Preference Stage)

namespace Plan

/-- The best-first search with a heuristic. -/
def ofPreference (h : Preference) : Plan :=
  .bestFirst { heuristic := h }

/-- The strategy of a kind, with the settings of a configuration. -/
def ofKind (c : Config) : StrategyKind → Plan
  | .depthFirst => .depthFirst
  | .replay => .replay
  | .randomRestart => .randomRestart c.pathLimit
  | .simulation => .simulation
  | .breadthFirst => ofPreference .breadthFirst
  | .deepestFirst => ofPreference .deepestFirst
  | .randomOrder => ofPreference (.random (.ofSeed c.seed))

/-- What a strategy counted in its last run. -/
inductive Counters where
  | none
  | walks (count : Nat)
  | queue (size stored : Nat)
deriving DecidableEq, Repr

/-- The number of walks that ended in a part of a journal. -/
def walksIn (entries : List Entry) : Nat :=
  entries.countP fun
    | .walked .. => true
    | _ => false

/-- The search of a session. -/
abbrev Subjects := Search Stage Subject Observer

/-- The result of running a plan. -/
structure Conducted where
  verdict : Except Failure Outcome
  plan : Plan
  search : Subjects

/-- A run of a strategy that keeps nothing. -/
def conductPlain (plan : Plan) (x : SearchM Stage Subject Observer Outcome) (s : Subjects) :
    Conducted :=
  match x s with
  | .ok outcome s => { verdict := .ok outcome, plan, search := s }
  | .error f s => { verdict := .error f, plan, search := s }

/-- Runs a plan. -/
def conduct (budget : Nat) (plan : Plan) (s : Subjects) : Conducted :=
  match plan with
  | .depthFirst => conductPlain plan (DepthFirst.run budget) s
  | .replay => conductPlain plan (Replay.run budget) s
  | .simulation => conductPlain plan (Simulation.run budget) s
  | .randomRestart n => conductPlain plan (RandomRestart.run n budget) s
  | .bestFirst b =>
    match BestFirst.run budget { strategy := b, search := s } with
    | .ok outcome x => { verdict := .ok outcome, plan := .bestFirst x.strategy, search := x.search }
    | .error f x => { verdict := .error f, plan := .bestFirst x.strategy, search := x.search }

/-- What a plan counted in a run that left the given entries. -/
def counters (entries : List Entry) : Plan → Counters
  | .randomRestart _ => .walks (walksIn entries)
  | .bestFirst b => .queue b.frontier.size b.stored
  | _ => .none

end Plan

end Statewalk
