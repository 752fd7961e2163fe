import Statewalk.Json.Basic

/-! # Kinds of strategy

The strategies that a configuration can name.
-/

namespace Statewalk

/-- A strategy that a configuration can name. -/
inductive StrategyKind where
  | depthFirst
  | replay
  | randomRestart
  | simulation
  | breadthFirst
  | deepestFirst
  | randomOrder
deriving DecidableEq, Repr

namespace StrategyKind

/-- The word for a kind in a configuration. -/
def label : StrategyKind → String
  | .depthFirst => "dfs"
  | .replay => "path_replay"
  | .randomRestart => "random_restart"
  | .simulation => "simulation"
  | .breadthFirst => "breadth_first"
  | .deepestFirst => "deepest_first"
  | .randomOrder => "random_heuristic"

/-- All kinds. -/
def all : List StrategyKind :=
  [.depthFirst, .replay, .randomRestart, .simulation, .breadthFirst, .deepestFirst, .randomOrder]

/-- Every kind with its word. -/
def named : List (String × StrategyKind) :=
  all.map fun k => (k.label, k)

/-- The name under which the strategy announces itself; all queue-driven ones share one. -/
def strategyName : StrategyKind → String
  | .depthFirst => "dfs"
  | .replay => "path_replay"
  | .randomRestart => "random_restart"
  | .simulation => "simulation"
  | .breadthFirst | .deepestFirst | .randomOrder => "heuristic"

/-- The strategy steps back one state at a time. -/
def stepsBack : StrategyKind → Bool
  | .depthFirst | .replay => true
  | _ => false

/-- The strategy resumes from snapshots. -/
def restores : StrategyKind → Bool
  | .randomRestart | .breadthFirst | .deepestFirst | .randomOrder => true
  | _ => false

/-- The value of a kind. -/
def toJson (k : StrategyKind) : Json :=
  .text k.label

/-- Reads a kind. -/
def ofJson? : Json → Option StrategyKind :=
  Json.choice? named

end StrategyKind

end Statewalk
