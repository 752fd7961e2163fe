import Statewalk.Publisher
import Statewalk.Proofs.GraphRecords

/-! # Texts of reports

A report is read back from its text, be it compact or indented, whatever its strings and numbers are.
-/

namespace Statewalk

open Json (Conveys conveys_text proper_nat proper_text slots?_object)

/-! ## What the numbers of a report are -/

/-- The thread is a word of 32 bits, and the state one of 64 bits. -/
def Transition.Fits (t : Transition) : Prop :=
  t.thread < Nat.pow 2 32 ∧ t.state < Nat.pow 2 64

/-- The number of the violation, its steps and its threads are words. -/
structure Summary.Fits (s : Summary) : Prop where
  id : s.id < Nat.pow 2 64
  path : ∀ t ∈ s.path.transitions, t.Fits
  threads : ∀ t ∈ s.threads.threads, t.Fits

/-- All counters are words. -/
def Tally.Fits (t : Tally) : Prop :=
  ∀ n ∈ [t.newStates, t.visitedStates, t.endStates, t.backtracked, t.processed, t.restored, t.stored,
    t.constraints, t.violations, t.probes, t.depth, t.maxDepth], n < Nat.pow 2 64

/-- All numbers of the report are words. -/
structure Report.Fits (r : Report) : Prop where
  depth : r.depth < Nat.pow 2 64
  tally : r.tally.Fits
  errors : ∀ s ∈ r.errors, s.Fits

/-! ## Reading -/

theorem Transition.conveys : Conveys Transition.Fits (fun t j => j = t.toJson) Transition.ofJson? := by
  rintro t _ fits rfl
  obtain ⟨-, thread⟩ := conveys_word32 t.thread _ fits.1 rfl
  obtain ⟨-, choice⟩ := conveys_text t.choice _ trivial rfl
  obtain ⟨-, state⟩ := conveys_word64 t.state _ fits.2 rfl
  constructor
  · apply Json.proper_object
    simp [proper_nat, proper_text]
  · have slots := slots?_object [("thread_id", .nat t.thread), ("choice", .text t.choice),
      ("state_id", .nat t.state)] (by simp)
    simp only [List.map_cons, List.map_nil] at slots
    simp [ofJson?, toJson, slots, Json.Slot.required, thread, choice, state]

theorem Path.ofTransitions_transitions (p : Path) : ofTransitions p.application p.transitions = p := by
  simp [ofTransitions, transitions]

theorem Path.conveys :
    Conveys (fun p : Path => ∀ t ∈ p.transitions, t.Fits) (fun p j => j = p.toJson) Path.ofJson? := by
  rintro p _ fits rfl
  obtain ⟨-, application⟩ := conveys_text p.application _ trivial rfl
  obtain ⟨proper, transitions⟩ :=
    Transition.conveys.list p.transitions _ fits (Json.listed_eq Transition.toJson p.transitions)
  constructor
  · apply Json.proper_object
    simpa [proper_text] using proper
  · have slots := slots?_object [("application", .text p.application),
      ("transitions", .list Transition.toJson p.transitions)] (by simp)
    simp only [List.map_cons, List.map_nil] at slots
    simp [ofJson?, toJson, slots, Json.Slot.required, application, transitions, ofTransitions_transitions]

theorem ThreadList.conveys : Conveys (fun l : ThreadList => ∀ t ∈ l.threads, t.Fits) (fun l j => j = l.toJson)
    ThreadList.ofJson? := by
  rintro l _ fits rfl
  obtain ⟨proper, threads⟩ := Threads.conveys l.threads _ fits (Threads.recorded_list l.threads)
  constructor
  · apply Json.proper_object
    simpa using proper
  · have slots := slots?_object [("threads", .list Thread.toJson l.threads)] (by simp)
    simp only [List.map_cons, List.map_nil] at slots
    simp [ofJson?, toJson, slots, Json.Slot.required, threads]

/-- A text that may be absent. -/
theorem conveys_nullable_text (o : Option String) :
    (Json.nullable .text o).Proper ∧ Json.nullable? Json.text? (.nullable .text o) = some o := by
  apply conveys_text.nullable o _ (fun _ _ => trivial)
  apply Json.nullable_nullable <;> simp [Json.text]

theorem Summary.conveys : Conveys Summary.Fits (fun s j => j = s.toJson) Summary.ofJson? := by
  rintro s _ fits rfl
  obtain ⟨-, id⟩ := conveys_word64 s.id _ fits.id rfl
  obtain ⟨-, property⟩ := conveys_text s.property _ trivial rfl
  obtain ⟨messageProper, message⟩ := conveys_nullable_text s.message
  obtain ⟨pathProper, path⟩ := Path.conveys s.path _ fits.path rfl
  obtain ⟨threadsProper, threads⟩ := ThreadList.conveys s.threads _ fits.threads rfl
  constructor
  · apply Json.proper_object
    simpa [proper_nat, proper_text] using ⟨messageProper, pathProper, threadsProper⟩
  · have slots := slots?_object [("id", .nat s.id), ("property", .text s.property),
      ("message", .nullable .text s.message), ("path", s.path.toJson), ("threads", s.threads.toJson)] (by simp)
    simp only [List.map_cons, List.map_nil] at slots
    simp [ofJson?, toJson, slots, Json.Slot.required, Json.Slot.optional, id, property, message, path, threads]

theorem conveys_double_zero : (Json.double 0).Proper ∧ Json.double? (.double 0) = some 0 := by
  have written : Number.ofFloat 0 = { negative := false, whole := 0, fraction := [0], exponent := none } := by
    decide +kernel
  constructor
  · simp [Json.double, written, Json.Proper, Number.Proper]
  · decide +kernel

theorem Tally.conveys :
    Conveys (fun t : Tally => t.Fits ∧ t.elapsed = 0) (fun t j => j = t.toJson) Tally.ofJson? := by
  rintro t _ ⟨fits, unclocked⟩ rfl
  have read {n : Nat} (small : n < Nat.pow 2 64) (f : Nat → Option Tally) :
      ((Json.Slot.given (.nat n)).required Json.word64? >>= f) = f n := by
    rw [Json.Slot.required, (conveys_word64 n _ small rfl).2]
    rfl
  obtain ⟨elapsedProper, elapsed⟩ := conveys_double_zero
  rw [← unclocked] at elapsedProper elapsed
  simp only [Fits, List.forall_mem_cons] at fits
  obtain ⟨newStates, visitedStates, endStates, backtracked, processed, restored, stored, constraints, violations,
    probes, depth, maxDepth, -⟩ := fits
  constructor
  · apply Json.proper_object
    simpa [counters, proper_nat] using elapsedProper
  · have slots := slots?_object (t.counters ++ [("elapsed_secs", .double t.elapsed)]) (by simp [counters])
    have names : (t.counters ++ [("elapsed_secs", Json.double t.elapsed)]).map Prod.fst = fieldNames := rfl
    rw [names] at slots
    rw [ofJson?, toJson, slots]
    -- The slots are read in order, each one before the next.
    refine (read newStates _).trans <| (read visitedStates _).trans <| (read endStates _).trans ?_
    refine (read backtracked _).trans <| (read processed _).trans <| (read restored _).trans ?_
    refine (read stored _).trans <| (read constraints _).trans <| (read violations _).trans ?_
    refine (read probes _).trans <| (read depth _).trans <| (read maxDepth _).trans ?_
    rw [Json.Slot.required, elapsed]
    rfl

theorem Report.conveys :
    Conveys (fun r : Report => r.Fits ∧ r.tally.elapsed = 0) (fun r j => j = r.toJson) Report.ofJson? := by
  rintro r _ ⟨fits, unclocked⟩ rfl
  obtain ⟨-, depth⟩ := conveys_word64 r.depth _ fits.depth rfl
  obtain ⟨constraintProper, constraint⟩ := conveys_nullable_text r.constraint
  obtain ⟨tallyProper, tally⟩ := Tally.conveys r.tally _ ⟨fits.tally, unclocked⟩ rfl
  obtain ⟨errorsProper, errors⟩ :=
    Summary.conveys.list r.errors _ fits.errors (Json.listed_eq Summary.toJson r.errors)
  constructor
  · apply Json.proper_object
    simpa [proper_nat] using ⟨constraintProper, tallyProper, errorsProper⟩
  · have slots := slots?_object [("depth", .nat r.depth), ("constraint", .nullable .text r.constraint),
      ("stats", r.tally.toJson), ("errors", .list Summary.toJson r.errors)] (by simp)
    simp only [List.map_cons, List.map_nil] at slots
    simp [ofJson?, toJson, slots, Json.Slot.required, Json.Slot.optional, depth, constraint, tally, errors]

/-! ## Published texts -/

/-- The indented text of a report ends with the brace that closes it. -/
theorem Report.getLast?_document (r : Report) : r.document.toList.getLast? = some '\x7d' := by
  simp only [document, toJson, Json.pretty, Json.object, String.toList_ofList, List.map_cons, Json.layout]
  exact List.getLast?_concat

/-- What a publisher writes of a report ends in one line break and is read as the report, and so is the compact
    text. -/
theorem published_report_reads_back {E P : Type} {r : Report} (fits : r.Fits) (unclocked : r.tally.elapsed = 0)
    (sink : Nat) (run : Run E P) :
    Publisher.publish (.results r) (({ sink } : JsonPublisher), run) =
        .ok () ({ sink }, run.record (.wrote sink (r.toJson.pretty ++ "\n"))) ∧
      r.toJson.pretty.toList.getLast? ≠ some '\n' ∧
      (Json.parse (r.toJson.pretty ++ "\n")).bind Report.ofJson? = some r ∧
      (Json.parse r.toJson.compact).bind Report.ofJson? = some r := by
  obtain ⟨proper, read⟩ := Report.conveys r _ ⟨fits, unclocked⟩ rfl
  refine ⟨rfl, ?_, ?_, ?_⟩
  · have brace : r.toJson.pretty.toList.getLast? = some '\x7d' := r.getLast?_document
    rw [brace]
    decide
  · have written : Json.parse (r.toJson.pretty ++ "\n") = some r.toJson :=
      @Json.parse_pretty_append _ proper ['\n'] rfl
    rw [written]
    exact read
  · rw [Json.parse_compact proper]
    exact read

/-- A report with empty lists, escapes in its texts and the largest numbers. -/
def Report.sampler : Report where
  depth := wordLimit - 1
  constraint := some "queue \"limit\"\n\u0001"
  tally := { newStates := wordLimit - 1, maxDepth := 3 }
  errors := [
    { id := wordLimit - 1, property := "\\", message := none, path := { application := "" }, threads := {} },
    { id := 0, property := "", message := some "\t日", path := .ofTransitions "a/b" [⟨0, "\x7d,", 7⟩],
      threads := ⟨[⟨1, "\r", .waiting⟩]⟩ }]

theorem sampler_report_reads_back : (Json.parse (Report.sampler.toJson.pretty ++ "\n")).bind Report.ofJson? =
    some Report.sampler := by
  have fits : Report.sampler.Fits := by
    refine ⟨by decide, by simp [Report.sampler, Tally.Fits, wordLimit], ?_⟩
    simp only [Report.sampler, List.forall_mem_cons]
    refine ⟨⟨by decide, by simp [Path.transitions], by simp⟩, ⟨by decide, ?_, ?_⟩, by simp⟩
    · simp [Transition.Fits]
    · simp [Thread.Fits]
  let run : Run Unit Unit := { engine := (), config := {}, memory := { gauge := .process 0 } }
  exact (published_report_reads_back fits rfl 0 run).2.2.1

end Statewalk
