import Statewalk.Reporter

/-! # The publishers of a session

The publishers of the library, and one that remarks on what is published and can be made to fail.
-/

namespace Statewalk

/-- The counters of a tally with the number of steps, as a session tells them. -/
def Tally.digest (t : Tally) : Json :=
  .object (t.counters ++ [("transitions", .nat (t.newStates + t.visitedStates))])

/-- A report as a session tells it. -/
def Report.digest (r : Report) : Json :=
  .object [("depth", .nat r.depth), ("constraint", .nullable .text r.constraint),
    ("stats", r.tally.digest), ("errors", .list Summary.toJson r.errors),
    ("clean", .bool r.isClean)]

/-- The word for a publication. -/
def Publication.label {P : Type} : Publication P → String
  | .start => "start"
  | .transition => "transition"
  | .constraint _ => "constraint"
  | .violation _ => "violation"
  | .progress _ => "probe"
  | .results _ => "finished"

/-- What a publication is about. -/
def Publication.detail {E P : Type} [Engine E] [Property P] (r : Run E P) : Publication P → Json
  | .start => .nat r.depth
  | .transition => .nat (Engine.stateId r.engine)
  | .constraint details => .text details
  | .violation v =>
    let s := r.summary v
    .arr [.nat s.id, .text s.property]
  | .progress t => t.digest
  | .results report => report.digest

/-- Remarks on publications; refuses those of one kind. -/
structure RecordPublisher where
  name : String
  refuses : Option String := none
  reason : String := ""
deriving DecidableEq, Repr

instance : Named RecordPublisher where
  name b := b.name

instance {E P : Type} [Engine E] [Property P] : Publisher E P RecordPublisher where
  publish p := do
    let (b, r) ← get
    if b.refuses = some p.label then throw (.complaint b.reason)
    else
      set (b, r.record (.remarked
        (.arr [.text "publisher", .text b.name, .text p.label, p.detail r])))

/-- A publisher of a session. -/
inductive Outlet where
  | log (b : LogPublisher)
  | json (b : JsonPublisher)
  | record (b : RecordPublisher)

instance : Named Outlet where
  name
    | .log b => Named.name b
    | .json b => Named.name b
    | .record b => Named.name b

/-- An operation on one part of a state. -/
def zoom {σ τ ρ α : Type} (wrap : σ → τ) (part : σ) (x : EStateM Failure (σ × ρ) α) (rest : ρ) :
    EStateM.Result Failure (τ × ρ) α :=
  match x (part, rest) with
  | .ok a (s, r) => .ok a (wrap s, r)
  | .error f (s, r) => .error f (wrap s, r)

instance {E P : Type} [Engine E] [Property P] : Publisher E P Outlet where
  publish p := fun (b, r) =>
    match b with
    | .log b => zoom .log b (Publisher.publish p) r
    | .json b => zoom .json b (Publisher.publish p) r
    | .record b => zoom .record b (Publisher.publish p) r

end Statewalk
