import Statewalk.Event
import Statewalk.Failure
import Statewalk.Json.Basic
import Statewalk.Path
import Statewalk.Tally

/-! # Journals

What happened to a search, in order: the moves of its engine, the events it announced, the
listeners it called, and what listeners and publishers had to say.  The diagnostics of a search
are read off its journal.
-/

namespace Statewalk

/-- A move of an engine. -/
inductive Move where
  | forward
  | backtrack
  | restore
deriving DecidableEq, Repr

/-- An announced event, and the state of the search when it was announced. -/
structure Bulletin where
  event : Event
  depth : Nat
  state : StateId
  pathLength : Nat
  depthLimit : Nat
  properties : Nat
  listeners : Nat
  violations : Nat
  constraint : Option String
deriving DecidableEq, Repr

/-- A line of a publisher that writes to the diagnostics. -/
inductive Notice where
  | started (depthLimit : Nat) (continueOnViolation : Bool)
  | transition (depth : Nat) (state : StateId)
  | constraint (details : String) (depth : Nat)
  | violation (id : Nat) (property : String) (pathLength : Nat)
  | progress (depth : Nat) (tally : Tally)
  | results (errors : Nat) (tally : Tally)

/-- One thing that happened. -/
inductive Entry where
  /-- A configuration was applied. -/
  | configured (config : Config)
  /-- A listener was added. -/
  | enlisted (listener : String)
  /-- A run was started without any property to check. -/
  | unguarded
  | launched (strategy : String)
  /-- At some depth the engine made a move, or refused it. -/
  | moved (move : Move) (depth : Nat) (done : Bool)
  /-- A traced engine took a transition out of a state. -/
  | crossed (source : StateId) (transition : Transition) (isNew : Bool)
  /-- Somebody asked the search to stop. -/
  | terminated
  | announced (bulletin : Bulletin)
  /-- A listener was told of an event. -/
  | called (listener : String) (event : Event)
  | listenerFailed (listener : String) (event : Event) (reason : String)
  | violated (id : Nat) (property : String) (depth : Nat)
  | memoryLow (available minFree : Nat)
  | reclaimed (count : Nat)
  /-- A best-first search took a state out of its queue. -/
  | expanding (heuristic : String) (state : StateId) (queued : Nat)
  /-- A random walk came to its end. -/
  | walked (walks depth : Nat)
  | timerStarted (milliseconds : Nat)
  | timerStopped
  | noticed (notice : Notice)
  /-- A remark of a listener or publisher. -/
  | remarked (remark : Json)
  /-- A publisher wrote text to a sink. -/
  | wrote (sink : Nat) (text : String)

/-- What happened, the latest first. -/
structure Journal where
  recent : List Entry := []

namespace Journal

/-- Adds an entry at the end. -/
def record (e : Entry) (j : Journal) : Journal :=
  { recent := e :: j.recent }

/-- The entries in order. -/
def entries (j : Journal) : List Entry :=
  j.recent.reverse

/-- The number of entries. -/
def length (j : Journal) : Nat :=
  j.recent.length

/-- The entries after the first `n`. -/
def entriesFrom (n : Nat) (j : Journal) : List Entry :=
  (j.recent.take (j.length - n)).reverse

@[simp] theorem entries_record (e : Entry) (j : Journal) :
    (j.record e).entries = j.entries ++ [e] := by
  simp [record, entries]

@[simp] theorem length_record (e : Entry) (j : Journal) : (j.record e).length = j.length + 1 := rfl

@[simp] theorem length_entries (j : Journal) : j.entries.length = j.length := by
  simp [entries, length]

/-- Entries of one kind that were added, and then some more of them. -/
theorem added_trans {p : Entry → Prop} {j j' j'' : Journal}
    (h : ∃ notes, j'.recent = notes ++ j.recent ∧ ∀ e ∈ notes, p e)
    (h' : ∃ notes, j''.recent = notes ++ j'.recent ∧ ∀ e ∈ notes, p e) :
    ∃ notes, j''.recent = notes ++ j.recent ∧ ∀ e ∈ notes, p e := by
  obtain ⟨notes, recent, all⟩ := h
  obtain ⟨notes', recent', all'⟩ := h'
  exact ⟨notes' ++ notes, by rw [recent', recent, List.append_assoc], List.forall_mem_append.2 ⟨all', all⟩⟩

theorem entriesFrom_eq_drop (n : Nat) (j : Journal) : j.entriesFrom n = j.entries.drop n := by
  simp [entriesFrom, entries, length, List.drop_reverse]

end Journal

namespace Entry

/-- The event that an entry announces. -/
def event? : Entry → Option Event
  | .announced b => some b.event
  | _ => none

/-- The remark that an entry holds. -/
def remark? : Entry → Option Json
  | .remarked j => some j
  | _ => none

/-- The text that an entry wrote to a sink. -/
def textFor? (sink : Nat) : Entry → Option String
  | .wrote s text => if s = sink then some text else none
  | _ => none

end Entry

/-- The events announced in a journal, in order. -/
def Journal.events (j : Journal) : List Event :=
  j.entries.filterMap Entry.event?

@[simp] theorem Journal.events_record (e : Entry) (j : Journal) :
    (j.record e).events = j.events ++ e.event?.toList := by
  cases h : e.event? <;> simp [events, h]

/-- Everything written to a sink. -/
def Journal.written (sink : Nat) (j : Journal) : String :=
  String.join (j.entries.filterMap (Entry.textFor? sink))

end Statewalk
