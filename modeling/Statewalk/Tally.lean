import Statewalk.Fault
import Statewalk.Json.Double
import Statewalk.Json.Record

/-! # Tallies

The counters of one run of a search.
-/

namespace Statewalk

/-- The counters of one run. -/
structure Tally where
  /-- Steps into states that were new. -/
  newStates : Nat := 0
  /-- Steps into states that were known. -/
  visitedStates : Nat := 0
  endStates : Nat := 0
  backtracked : Nat := 0
  processed : Nat := 0
  restored : Nat := 0
  stored : Nat := 0
  constraints : Nat := 0
  violations : Nat := 0
  probes : Nat := 0
  /-- The depth at the last event that tells one. -/
  depth : Nat := 0
  maxDepth : Nat := 0
  /-- Seconds since the run started; a search does not look at a clock, so it stays zero there. -/
  elapsed : Float := 0
deriving Repr

namespace Tally

/-- The number of steps. -/
def transitions (t : Tally) : Except Fault Nat :=
  addWords t.newStates t.visitedStates

/-- Notes the current depth. -/
def atDepth (d : Nat) (t : Tally) : Tally :=
  { t with depth := d, maxDepth := max t.maxDepth d }

@[simp] theorem depth_atDepth (d : Nat) (t : Tally) : (t.atDepth d).depth = d := rfl

@[simp] theorem maxDepth_atDepth (d : Nat) (t : Tally) :
    (t.atDepth d).maxDepth = max t.maxDepth d := rfl

/-- The counters of a tally with their names, in order. -/
def counters (t : Tally) : List (String × Json) :=
  [("new_states", .nat t.newStates), ("visited_states", .nat t.visitedStates),
    ("end_states", .nat t.endStates), ("backtracked", .nat t.backtracked),
    ("processed", .nat t.processed), ("restored", .nat t.restored), ("stored", .nat t.stored),
    ("constraints", .nat t.constraints), ("violations", .nat t.violations),
    ("probes", .nat t.probes), ("depth", .nat t.depth), ("max_depth", .nat t.maxDepth)]

/-- The record of a tally. -/
def toJson (t : Tally) : Json :=
  .object (t.counters ++ [("elapsed_secs", .double t.elapsed)])

/-- The field names of the record, in order. -/
def fieldNames : List String :=
  ["new_states", "visited_states", "end_states", "backtracked", "processed", "restored", "stored",
    "constraints", "violations", "probes", "depth", "max_depth", "elapsed_secs"]

/-- Reads the record of a tally. -/
def ofJson? (j : Json) : Option Tally := do
  let [newStates, visitedStates, endStates, backtracked, processed, restored, stored, constraints,
    violations, probes, depth, maxDepth, elapsed] ← j.slots? fieldNames | none
  return {
    newStates := ← newStates.required Json.word64?
    visitedStates := ← visitedStates.required Json.word64?
    endStates := ← endStates.required Json.word64?
    backtracked := ← backtracked.required Json.word64?
    processed := ← processed.required Json.word64?
    restored := ← restored.required Json.word64?
    stored := ← stored.required Json.word64?
    constraints := ← constraints.required Json.word64?
    violations := ← violations.required Json.word64?
    probes := ← probes.required Json.word64?
    depth := ← depth.required Json.word64?
    maxDepth := ← maxDepth.required Json.word64?
    elapsed := ← elapsed.required Json.double? }

end Tally

end Statewalk
