import Statewalk.Json.Parser
import Statewalk.Json.Printer
import Statewalk.Json.Record
import Statewalk.MemorySize
import Statewalk.Strategy.Kind

/-! # Configurations

The settings of a search, their defaults, what makes them valid, and their record.
-/

namespace Statewalk

/-- The settings of a search. -/
structure Config where
  /-- Depth that is not passed. -/
  depthLimit : Nat := wordLimit - 1
  /-- A known state counts as new again when it is met at a smaller depth. -/
  matchByMinDepth : Bool := false
  /-- The search stops when less memory than this is left. -/
  minFreeMemory : MemorySize := ⟨MemorySize.mebi⟩
  /-- The memory that the process may take; unlimited if absent. -/
  maxMemory : Option MemorySize := none
  /-- The search goes on after a violation and collects them all. -/
  continueOnViolation : Bool := false
  /-- Number of walks of a random restart. -/
  pathLimit : Nat := 1
  /-- Bound on the queue of a best-first search. -/
  queueLimit : Option Nat := none
  /-- A best-first search queues known states too. -/
  pathSensitive : Bool := false
  /-- Period of the progress probe in milliseconds. -/
  probeInterval : Option Nat := none
  strategy : StrategyKind := .depthFirst
  /-- Seed of a random order. -/
  seed : Nat := 42
deriving DecidableEq, Repr

/-- A setting that must not be zero. -/
inductive Limit where
  | depth
  | path
  | queue
  | probeInterval
deriving DecidableEq, Repr

/-- The word for such a setting. -/
def Limit.label : Limit → String
  | .depth => "depth_limit"
  | .path => "path_limit"
  | .queue => "queue_limit"
  | .probeInterval => "probe_interval_ms"

/-- What is wrong with a configuration. -/
inductive ConfigError where
  | invalidMemorySize (text : String)
  | zero (limit : Limit)
  /-- The text is no record of a configuration. -/
  | malformed
deriving DecidableEq, Repr

/-- The wording of a configuration error. -/
def ConfigError.message : ConfigError → String
  | .invalidMemorySize s => "invalid memory size '" ++ s ++ "'"
  | .zero l => "'" ++ l.label ++ "' must be greater than zero"
  | .malformed => "invalid search configuration"

/-- Reads a memory size, or says which text is none. -/
def MemorySize.parse (s : String) : Except ConfigError MemorySize :=
  match parse? s with
  | some m => .ok m
  | none => .error (.invalidMemorySize s)

namespace Config

/-- The first limit that is zero. -/
def zeroLimit? (c : Config) : Option Limit :=
  if c.depthLimit = 0 then some .depth
  else if c.pathLimit = 0 then some .path
  else if c.queueLimit = some 0 then some .queue
  else if c.probeInterval = some 0 then some .probeInterval
  else none

/-- A configuration is valid if none of its limits is zero. -/
def validate (c : Config) : Except ConfigError Unit :=
  match c.zeroLimit? with
  | some l => .error (.zero l)
  | none => .ok ()

/-- The field names of the record, in order. -/
def fieldNames : List String :=
  ["depth_limit", "match_by_min_depth", "min_free_memory", "max_memory", "continue_on_violation",
    "path_limit", "queue_limit", "path_sensitive", "probe_interval_ms", "strategy", "seed"]

/-- The record of a configuration. -/
def toJson (c : Config) : Json :=
  .object [("depth_limit", .nat c.depthLimit), ("match_by_min_depth", .bool c.matchByMinDepth),
    ("min_free_memory", c.minFreeMemory.toJson),
    ("max_memory", .nullable MemorySize.toJson c.maxMemory),
    ("continue_on_violation", .bool c.continueOnViolation), ("path_limit", .nat c.pathLimit),
    ("queue_limit", .nullable .nat c.queueLimit), ("path_sensitive", .bool c.pathSensitive),
    ("probe_interval_ms", .nullable .nat c.probeInterval), ("strategy", c.strategy.toJson),
    ("seed", .nat c.seed)]

/-- Reads the record of a configuration; fields that are not given have their defaults. -/
def ofJson? (j : Json) : Option Config := do
  let [depthLimit, matchByMinDepth, minFreeMemory, maxMemory, continueOnViolation, pathLimit,
    queueLimit, pathSensitive, probeInterval, strategy, seed] ← j.slots? fieldNames | none
  let base : Config := {}
  return {
    depthLimit := ← depthLimit.orDefault base.depthLimit Json.word64?
    matchByMinDepth := ← matchByMinDepth.orDefault base.matchByMinDepth Json.bool?
    minFreeMemory := ← minFreeMemory.orDefault base.minFreeMemory MemorySize.ofJson?
    maxMemory := ← maxMemory.orDefault base.maxMemory (Json.nullable? MemorySize.ofJson?)
    continueOnViolation := ← continueOnViolation.orDefault base.continueOnViolation Json.bool?
    pathLimit := ← pathLimit.orDefault base.pathLimit Json.word64?
    queueLimit := ← queueLimit.orDefault base.queueLimit (Json.nullable? Json.word64?)
    pathSensitive := ← pathSensitive.orDefault base.pathSensitive Json.bool?
    probeInterval := ← probeInterval.orDefault base.probeInterval (Json.nullable? Json.word64?)
    strategy := ← strategy.orDefault base.strategy StrategyKind.ofJson?
    seed := ← seed.orDefault base.seed Json.word64? }

/-- Reads the text of a valid configuration. -/
def parse (s : String) : Except ConfigError Config :=
  match (Json.parse s).bind ofJson? with
  | none => .error .malformed
  | some c => c.validate.map fun _ => c

end Config

end Statewalk
