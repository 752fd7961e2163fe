import Statewalk.Journal

/-! # Diagnostics

The lines that a journal gives to a log.  Not every entry is told: moves of the engine, requests,
calls of listeners and remarks are not.
-/

namespace Statewalk

/-- How much a diagnostic matters. -/
inductive Severity where
  | trace
  | debug
  | info
  | warn
  | error
deriving DecidableEq, Repr

/-- The part of the library that a diagnostic comes from. -/
inductive Component where
  | search
  | memory
  | probe
  | report
  | bestFirst
  | randomRestart
  | graphEngine
deriving DecidableEq, Repr

/-- A line of a log: a message and named values. -/
structure Diagnostic where
  severity : Severity
  component : Component
  message : String
  fields : List (String × Json) := []

/-- The line for an announced event, if it is told. -/
def Bulletin.diagnostic? (b : Bulletin) : Option Diagnostic :=
  match b.event with
  | .searchStarted => some {
      severity := .info, component := .search, message := "search started"
      fields := [("depth_limit", .nat b.depthLimit), ("properties", .nat b.properties),
        ("listeners", .nat b.listeners)] }
  | .stateAdvanced => some {
      severity := .trace, component := .search, message := "state advanced"
      fields := [("depth", .nat b.depth), ("state_id", .nat b.state)] }
  | .stateBacktracked => some {
      severity := .debug, component := .search, message := "state backtracked"
      fields := [("depth", .nat b.depth)] }
  | .stateRestored => some {
      severity := .debug, component := .search, message := "state restored"
      fields := [("depth", .nat b.depth)] }
  | .searchConstraintHit => some {
      severity := .info, component := .search, message := "search constraint hit"
      fields := [("constraint", .text (b.constraint.getD "")), ("depth", .nat b.depth)] }
  | .searchFinished => some {
      severity := .info, component := .search, message := "search finished"
      fields := [("depth", .nat b.depth), ("errors", .nat b.violations)] }
  | .stateProcessed | .stateStored | .propertyViolated | .searchProbed => none

/-- The line for a notice. -/
def Notice.diagnostic : Notice → Diagnostic
  | .started depthLimit continueOnViolation => {
      severity := .info, component := .report, message := "search started"
      fields := [("depth_limit", .nat depthLimit),
        ("continue_on_violation", .bool continueOnViolation)] }
  | .transition depth state => {
      severity := .trace, component := .report, message := "transition"
      fields := [("depth", .nat depth), ("state_id", .nat state)] }
  | .constraint details depth => {
      severity := .warn, component := .report, message := "search constraint hit"
      fields := [("constraint", .text details), ("depth", .nat depth)] }
  | .violation id property pathLength => {
      severity := .warn, component := .report, message := "property violation"
      fields := [("id", .nat id), ("property", .text property),
        ("path_length", .nat pathLength)] }
  | .progress depth t => {
      severity := .info, component := .report, message := "search progress"
      fields := [("depth", .nat depth), ("max_depth", .nat t.maxDepth),
        ("new_states", .nat t.newStates), ("visited_states", .nat t.visitedStates),
        ("backtracked", .nat t.backtracked)] }
  | .results errors t => {
      severity := .info, component := .report, message := "search results"
      fields := [("errors", .nat errors), ("max_depth", .nat t.maxDepth),
        ("new_states", .nat t.newStates), ("end_states", .nat t.endStates)] }

/-- The line for an entry, if it is told. -/
def Entry.diagnostic? : Entry → Option Diagnostic
  | .configured c => some {
      severity := .debug, component := .search, message := "search configured"
      fields := [("depth_limit", .nat c.depthLimit), ("match_by_min_depth", .bool c.matchByMinDepth),
        ("min_free_memory", .nat c.minFreeMemory.bytes),
        ("continue_on_violation", .bool c.continueOnViolation)] }
  | .enlisted name => some {
      severity := .debug, component := .search, message := "search listener added"
      fields := [("listener", .text name)] }
  | .unguarded => some { severity := .warn, component := .search, message := "no property" }
  | .launched strategy => some {
      severity := .info, component := .search, message := "running search"
      fields := [("strategy", .text strategy)] }
  | .crossed source transition isNew => some {
      severity := .trace, component := .graphEngine, message := "graph transition"
      fields := [("from", .nat source), ("to", .nat transition.state), ("is_new", .bool isNew)] }
  | .announced b => b.diagnostic?
  | .listenerFailed name event reason => some {
      severity := .error, component := .search, message := "listener failed"
      fields := [("event", .text event.label), ("listener", .text name),
        ("error", .text reason)] }
  | .violated id property depth => some {
      severity := .info, component := .search, message := "property violated"
      fields := [("id", .nat id), ("property", .text property), ("depth", .nat depth)] }
  | .memoryLow available minFree => some {
      severity := .debug, component := .search, message := "low memory, requesting reclaim"
      fields := [("available", .nat available), ("min_free", .nat minFree)] }
  | .reclaimed count => some {
      severity := .debug, component := .memory, message := "memory reclaim requested"
      fields := [("reclaims", .nat count)] }
  | .expanding heuristic state queued => some {
      severity := .debug, component := .bestFirst, message := "expanding queued state"
      fields := [("heuristic", .text heuristic), ("state_id", .nat state),
        ("queued", .nat queued)] }
  | .walked walks depth => some {
      severity := .debug, component := .randomRestart, message := "random walk finished"
      fields := [("walks", .nat walks), ("depth", .nat depth)] }
  | .timerStarted ms => some {
      severity := .debug, component := .probe, message := "probe timer started"
      fields := [("interval_ms", .nat ms)] }
  | .timerStopped => some {
      severity := .debug, component := .probe, message := "probe timer stopped" }
  | .noticed n => some n.diagnostic
  | .moved .. | .terminated | .called .. | .remarked .. | .wrote .. => none

end Statewalk
