import Statewalk.Json.Printer
import Statewalk.Statistics

/-! # Publishers

A publisher passes on what a reporter has to say.  `LogPublisher` writes to the diagnostics,
`JsonPublisher` writes the final report as indented JSON text to a sink.
-/

namespace Statewalk

/-- What is published. -/
inductive Publication (P : Type) where
  | start
  | transition
  | constraint (details : String)
  | violation (violation : Violation P)
  | progress (tally : Tally)
  | results (report : Report)

/-- Something that passes publications on. -/
class Publisher (E P B : Type) extends Named B where
  publish : Publication P → EStateM Failure (B × Run E P) Unit

/-- Writes to the diagnostics. -/
structure LogPublisher where
deriving DecidableEq, Repr

namespace LogPublisher

variable {E P : Type} [Engine E] [Property P]

/-- The line for a publication. -/
def notice (r : Run E P) : Publication P → Notice
  | .start => .started r.config.depthLimit r.config.continueOnViolation
  | .transition => .transition r.depth (Engine.stateId r.engine)
  | .constraint details => .constraint details r.depth
  | .violation v =>
    let s := r.summary v
    .violation s.id s.property s.path.length
  | .progress t => .progress r.depth t
  | .results report => .results report.errors.length report.tally

end LogPublisher

instance : Named LogPublisher where
  name _ := "tracing"

instance {E P : Type} [Engine E] [Property P] : Publisher E P LogPublisher where
  publish p := modify fun (b, r) => (b, r.record (.noticed (LogPublisher.notice r p)))

/-- What a sink refuses. -/
inductive SinkFault where
  /-- Every write. -/
  | write
  /-- The last line break. -/
  | newline
  /-- To be flushed. -/
  | flush
deriving DecidableEq, Repr

/-- The wording of a refusal. -/
def SinkFault.message : SinkFault → String
  | .write | .newline => "sink refused write"
  | .flush => "sink refused flush"

/-- The text of a published report, up to its last line break. -/
def Report.document (r : Report) : String :=
  r.toJson.pretty

/-- Writes the final report to a sink. -/
structure JsonPublisher where
  sink : Nat
  fault : Option SinkFault := none
deriving DecidableEq, Repr

/-- What reaches the sink of a report. -/
def JsonPublisher.output (b : JsonPublisher) (report : Report) : String :=
  match b.fault with
  | some .write => ""
  | some .newline => report.document
  | some .flush | none => report.document ++ "\n"

instance : Named JsonPublisher where
  name _ := "json"

instance {E P : Type} : Publisher E P JsonPublisher where
  publish
    | .results report => do
      let (b, r) ← get
      set (b, r.record (.wrote b.sink (b.output report)))
      match b.fault with
      | some f => throw (.complaint f.message)
      | none => return ()
    | _ => return ()

end Statewalk
