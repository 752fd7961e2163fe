import Statewalk.Json.Record

/-! # Threads

The threads of the explored program and whether they can run.
-/

namespace Statewalk

/-- Whether a thread can run. -/
inductive ThreadStatus where
  | runnable
  | blocked
  | waiting
  | terminated
deriving DecidableEq, Repr

namespace ThreadStatus

/-- The word for a status. -/
def label : ThreadStatus → String
  | .runnable => "runnable"
  | .blocked => "blocked"
  | .waiting => "waiting"
  | .terminated => "terminated"

/-- Every status with its word. -/
def named : List (String × ThreadStatus) :=
  [.runnable, .blocked, .waiting, .terminated].map fun s => (s.label, s)

end ThreadStatus

/-- A thread of the explored program. -/
structure Thread where
  id : Nat
  name : String
  status : ThreadStatus
deriving DecidableEq, Repr

namespace Thread

/-- The record of a thread. -/
def toJson (t : Thread) : Json :=
  .object [("id", .nat t.id), ("name", .text t.name), ("status", .text t.status.label)]

/-- Reads the record of a thread. -/
def ofJson? (j : Json) : Option Thread := do
  let [id, name, status] ← j.slots? ["id", "name", "status"] | none
  return {
    id := ← id.required Json.word32?
    name := ← name.required Json.text?
    status := ← status.required (Json.choice? ThreadStatus.named) }

end Thread

/-- All threads at a state. -/
structure ThreadList where
  threads : List Thread := []
deriving DecidableEq, Repr

namespace ThreadList

/-- The number of threads that can run. -/
def runnableCount (l : ThreadList) : Nat :=
  l.threads.countP (·.status = .runnable)

/-- The first thread with an id. -/
def find? (l : ThreadList) (id : Nat) : Option Thread :=
  l.threads.find? (·.id = id)

/-- Changes the first thread that has an id. -/
def modifyFirst (id : Nat) (f : Thread → Thread) : List Thread → List Thread
  | [] => []
  | t :: ts => if t.id = id then f t :: ts else t :: modifyFirst id f ts

/-- Gives the first thread with an id a new status. -/
def setStatus (id : Nat) (status : ThreadStatus) (l : ThreadList) : ThreadList :=
  { threads := modifyFirst id (fun t => { t with status }) l.threads }

@[simp] theorem length_modifyFirst (id : Nat) (f : Thread → Thread) (ts : List Thread) :
    (modifyFirst id f ts).length = ts.length := by
  induction ts with
  | nil => rfl
  | cons t ts ih => simp only [modifyFirst]; split <;> simp [ih]

/-- The record of a thread list. -/
def toJson (l : ThreadList) : Json :=
  .object [("threads", .list Thread.toJson l.threads)]

/-- Reads the record of a thread list. -/
def ofJson? (j : Json) : Option ThreadList := do
  let [threads] ← j.slots? ["threads"] | none
  return { threads := ← threads.required (Json.list? Thread.ofJson?) }

end ThreadList

end Statewalk
