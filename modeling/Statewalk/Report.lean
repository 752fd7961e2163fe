import Statewalk.Path
import Statewalk.Tally
import Statewalk.Threads

/-! # Reports

What a run found: the summaries of its violations, its tally, the depth it ended at and the last
limit it hit.
-/

namespace Statewalk

/-- What is known of one violation. -/
structure Summary where
  id : Nat
  property : String
  message : Option String
  path : Path
  threads : ThreadList
deriving DecidableEq, Repr

namespace Summary

/-- The record of a summary. -/
def toJson (s : Summary) : Json :=
  .object [("id", .nat s.id), ("property", .text s.property),
    ("message", .nullable .text s.message), ("path", s.path.toJson),
    ("threads", s.threads.toJson)]

/-- Reads the record of a summary. -/
def ofJson? (j : Json) : Option Summary := do
  let [id, property, message, path, threads] ←
    j.slots? ["id", "property", "message", "path", "threads"] | none
  return {
    id := ← id.required Json.word64?
    property := ← property.required Json.text?
    message := ← message.optional Json.text?
    path := ← path.required Path.ofJson?
    threads := ← threads.required ThreadList.ofJson? }

end Summary

/-- What a run found. -/
structure Report where
  depth : Nat
  constraint : Option String
  tally : Tally
  errors : List Summary
deriving Repr

namespace Report

/-- The run found no violation. -/
def isClean (r : Report) : Bool :=
  r.errors.isEmpty

/-- The record of a report. -/
def toJson (r : Report) : Json :=
  .object [("depth", .nat r.depth), ("constraint", .nullable .text r.constraint),
    ("stats", r.tally.toJson), ("errors", .list Summary.toJson r.errors)]

/-- Reads the record of a report. -/
def ofJson? (j : Json) : Option Report := do
  let [depth, constraint, tally, errors] ←
    j.slots? ["depth", "constraint", "stats", "errors"] | none
  return {
    depth := ← depth.required Json.word64?
    constraint := ← constraint.optional Json.text?
    tally := ← tally.required Tally.ofJson?
    errors := ← errors.required (Json.list? Summary.ofJson?) }

end Report

end Statewalk
