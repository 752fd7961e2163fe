import Statewalk.Graph
import Statewalk.Proofs.JsonRecords

/-! # Records of graphs

A graph is read back from its text, whatever its strings and numbers are, and from every text in which
fields that hold their default are left out.  Reading the text of a graph checks the graph.
-/

namespace Statewalk

open Json (Conveys Field Listed Nullable record conveys_nat conveys_text conveys_bool)

/-! ## What the numbers of a graph are -/

/-- The number of the thread is a word of 32 bits. -/
def Thread.Fits (t : Thread) : Prop :=
  t.id < Nat.pow 2 32

/-- The target is a word of 64 bits, and the thread one of 32 bits. -/
def Edge.Fits (e : Edge) : Prop :=
  e.target < Nat.pow 2 64 ∧ e.thread < Nat.pow 2 32

/-- All edges and threads of the state have numbers that are words. -/
def GraphState.Fits (q : GraphState) : Prop :=
  (∀ e ∈ q.edges, e.Fits) ∧ ∀ ts ∈ q.threads, ∀ t ∈ ts, t.Fits

/-- All numbers of the graph are words. -/
def StateGraph.Fits (g : StateGraph) : Prop :=
  (∀ q ∈ g.states, q.Fits) ∧ ∀ t ∈ g.threads, t.Fits

/-! ## Records -/

/-- The value is a record of the edge.  A thread 0 and an empty label may be left out. -/
inductive Edge.Recorded : Edge → Json → Prop where
  | intro {e : Edge} {thread label : Option Json} :
      Field 0 (fun n j => j = .nat n) e.thread thread → Field "" (fun s j => j = .text s) e.label label →
      Recorded e (record [("to", some (.nat e.target)), ("thread", thread), ("label", label)])

/-- The value is a list of records of threads. -/
abbrev Threads.Recorded : List Thread → Json → Prop :=
  Listed fun t j => j = t.toJson

/-- The value is a record of the state.  An empty label, the flag of a state that is not flagged, an empty
    list of edges and absent threads may be left out. -/
inductive GraphState.Recorded : GraphState → Json → Prop where
  | intro {q : GraphState} {label flaggedEnd edges threads : Option Json} :
      Field "" (fun s j => j = .text s) q.label label →
      Field false (fun b j => j = .bool b) q.flaggedEnd flaggedEnd →
      Field [] (Listed Edge.Recorded) q.edges edges →
      Field none (Nullable Threads.Recorded) q.threads threads →
      Recorded q (record [("label", label), ("end", flaggedEnd), ("edges", edges), ("threads", threads)])

/-- The value is a record of the graph.  An empty name and an empty list of threads may be left out. -/
inductive StateGraph.Recorded : StateGraph → Json → Prop where
  | intro {g : StateGraph} {name threads : Option Json} {states : Json} :
      Field "" (fun s j => j = .text s) g.name name → Listed GraphState.Recorded g.states states →
      Field [] Threads.Recorded g.threads threads →
      Recorded g (record [("name", name), ("states", some states), ("threads", threads)])

/-! ## Reading -/

theorem conveys_word32 : Conveys (· < Nat.pow 2 32) (fun n j => j = .nat n) Json.word32? :=
  conveys_nat _

theorem conveys_word64 : Conveys (· < Nat.pow 2 64) (fun n j => j = .nat n) Json.word64? :=
  conveys_nat _

theorem ThreadStatus.conveys :
    Conveys (fun _ => True) (fun status j => j = .text status.label) (Json.choice? named) := by
  rintro status _ - rfl
  refine ⟨Json.proper_text _, ?_⟩
  cases status <;> decide

theorem Thread.conveys : Conveys Thread.Fits (fun t j => j = t.toJson) Thread.ofJson? := by
  rintro t _ fits rfl
  obtain ⟨idProper, id⟩ := conveys_word32.required (a := t.id) fits rfl
  obtain ⟨nameProper, name⟩ := conveys_text.required (a := t.name) trivial rfl
  obtain ⟨statusProper, status⟩ := ThreadStatus.conveys.required (a := t.status) trivial rfl
  have written : t.toJson = record [("id", some (.nat t.id)), ("name", some (.text t.name)),
      ("status", some (.text t.status.label))] := rfl
  rw [written]
  constructor
  · apply Json.proper_record
    simpa using ⟨idProper, nameProper, statusProper⟩
  · have slots := Json.slots?_record [("id", some (.nat t.id)), ("name", some (.text t.name)),
      ("status", some (.text t.status.label))] (by simp)
    simp only [List.map_cons, List.map_nil] at slots
    simp [ofJson?, slots, id, name, status]

theorem Threads.conveys :
    Conveys (fun ts : List Thread => ∀ t ∈ ts, t.Fits) Threads.Recorded (Json.list? Thread.ofJson?) :=
  Thread.conveys.list

theorem Edge.conveys : Conveys Edge.Fits Edge.Recorded Edge.ofJson? := by
  intro e j fits written
  cases written with
  | @intro threadJson labelJson threadWritten labelWritten =>
    obtain ⟨targetProper, target⟩ := conveys_word64.required (a := e.target) fits.1 rfl
    obtain ⟨threadProper, thread⟩ := conveys_word32.field fits.2 threadWritten
    obtain ⟨labelProper, label⟩ := conveys_text.field trivial labelWritten
    constructor
    · apply Json.proper_record
      simpa using ⟨targetProper, threadProper, labelProper⟩
    · have slots := Json.slots?_record [("to", some (.nat e.target)), ("thread", threadJson),
        ("label", labelJson)] (by simp)
      simp only [List.map_cons, List.map_nil] at slots
      simp [ofJson?, slots, target, thread, label]

theorem GraphState.conveys : Conveys GraphState.Fits GraphState.Recorded GraphState.ofJson? := by
  intro q j fits written
  cases written with
  | @intro labelJson endJson edgesJson threadsJson labelWritten endWritten edgesWritten threadsWritten =>
    obtain ⟨labelProper, label⟩ := conveys_text.field trivial labelWritten
    obtain ⟨endProper, flaggedEnd⟩ := conveys_bool.field trivial endWritten
    obtain ⟨edgesProper, edges⟩ := Edge.conveys.list.field fits.1 edgesWritten
    obtain ⟨threadsProper, threads⟩ := Threads.conveys.nullable.field fits.2 threadsWritten
    constructor
    · apply Json.proper_record
      simpa using ⟨labelProper, endProper, edgesProper, threadsProper⟩
    · have slots := Json.slots?_record [("label", labelJson), ("end", endJson), ("edges", edgesJson),
        ("threads", threadsJson)] (by simp)
      simp only [List.map_cons, List.map_nil] at slots
      simp [ofJson?, slots, label, flaggedEnd, edges, threads]

theorem StateGraph.conveys : Conveys StateGraph.Fits StateGraph.Recorded StateGraph.ofJson? := by
  intro g j fits written
  cases written with
  | @intro nameJson threadsJson statesJson nameWritten statesWritten threadsWritten =>
    obtain ⟨nameProper, name⟩ := conveys_text.field trivial nameWritten
    obtain ⟨statesProper, states⟩ := GraphState.conveys.list.required fits.1 statesWritten
    obtain ⟨threadsProper, threads⟩ := Threads.conveys.field fits.2 threadsWritten
    constructor
    · apply Json.proper_record
      simpa using ⟨nameProper, statesProper, threadsProper⟩
    · have slots := Json.slots?_record [("name", nameJson), ("states", some statesJson),
        ("threads", threadsJson)] (by simp)
      simp only [List.map_cons, List.map_nil] at slots
      simp [ofJson?, slots, name, states, threads]

/-! ## Writing -/

theorem Edge.recorded_toJson (e : Edge) : e.Recorded e.toJson :=
  .intro (.given rfl) (.given rfl)

theorem Threads.recorded_list (ts : List Thread) : Threads.Recorded ts (.list Thread.toJson ts) :=
  Json.listed_eq Thread.toJson ts

theorem GraphState.recorded_toJson (q : GraphState) : q.Recorded q.toJson := by
  have threads : Field none (Nullable Threads.Recorded) q.threads
      (q.threads.map (.list Thread.toJson)) := by
    cases q.threads with
    | none => exact .omitted
    | some ts => exact .given (.some (Threads.recorded_list ts) (by simp [Json.list]))
  have written : q.toJson = record [("label", some (.text q.label)), ("end", some (.bool q.flaggedEnd)),
      ("edges", some (.list Edge.toJson q.edges)), ("threads", q.threads.map (.list Thread.toJson))] := by
    cases given : q.threads <;> simp [toJson, record, given]
  rw [written]
  exact .intro (.given rfl) (.given rfl) (.given (Json.listed_list Edge.recorded_toJson _)) threads

theorem StateGraph.recorded_toJson (g : StateGraph) : g.Recorded g.toJson :=
  .intro (.given rfl) (Json.listed_list GraphState.recorded_toJson _) (.given (Threads.recorded_list _))

/-! ## Texts of graphs -/

namespace StateGraph

variable {g : StateGraph} {j : Json}

theorem ofJson?_of_recorded (fits : g.Fits) (written : g.Recorded j) :
    (Json.parse j.compact).bind ofJson? = some g := by
  obtain ⟨proper, back⟩ := StateGraph.conveys g j fits written
  rw [Json.parse_compact proper, Option.bind_some, back]

theorem parse_of_recorded (fits : g.Fits) (written : g.Recorded j) :
    parse j.compact = g.validate.map fun _ => g := by
  rw [parse, ofJson?_of_recorded fits written, load]

/-- A graph is read back from its text, and from every text that leaves out fields with default values.
    Reading also checks: a valid graph is accepted, and any other is refused for the reason for which it is
    not valid. -/
theorem text_reads_back (g : StateGraph) (fits : g.Fits) :
    (Json.parse g.toJson.compact).bind ofJson? = some g ∧
      (g.validate = .ok () → parse g.toJson.compact = .ok g) ∧
      (∀ err, g.validate = .error err → parse g.toJson.compact = .error err) ∧
      ∀ j, g.Recorded j → (Json.parse j.compact).bind ofJson? = some g ∧
        parse j.compact = parse g.toJson.compact := by
  have checked := parse_of_recorded fits g.recorded_toJson
  refine ⟨ofJson?_of_recorded fits g.recorded_toJson, ?_, ?_, ?_⟩
  · intro valid
    simp [checked, valid, Except.map]
  · intro err invalid
    simp [checked, invalid, Except.map]
  · intro j written
    exact ⟨ofJson?_of_recorded fits written, by rw [checked, parse_of_recorded fits written]⟩

/-- An edge with all its fields, and one with defaults that leads nowhere. -/
def samplerEdges : List Edge :=
  [⟨1, 2, "é\u0007"⟩, { target := 18446744073709551615 }]

/-- A graph with the strings and thread lists that are hardest to write. -/
def sampler : StateGraph where
  name := "say \"hi\"\n"
  states := [
    { label := "a\\b", edges := samplerEdges },
    { flaggedEnd := true, threads := some [] },
    { threads := some [⟨4294967295, "τ", .waiting⟩] }]

/-- The record of the graph without the fields that hold their default. -/
def abridgedSampler : Json :=
  let edges : Json := .arr [
    .object [("to", .nat 1), ("thread", .nat 2), ("label", .text "é\u0007")],
    .object [("to", .nat 18446744073709551615)]]
  .object [("name", .text "say \"hi\"\n"), ("states", .arr [
    .object [("label", .text "a\\b"), ("edges", edges)],
    .object [("end", .bool true), ("threads", .arr [])],
    .object [("threads", .list Thread.toJson [⟨4294967295, "τ", .waiting⟩])]])]

theorem recorded_abridgedSampler : sampler.Recorded abridgedSampler := by
  have edges : Listed Edge.Recorded samplerEdges (.arr [
      record [("to", some (.nat 1)), ("thread", some (.nat 2)), ("label", some (.text "é\u0007"))],
      record [("to", some (.nat 18446744073709551615)), ("thread", none), ("label", none)]]) :=
    .intro (.cons (.intro (.given rfl) (.given rfl)) (.cons (.intro .omitted .omitted) .nil))
  have own : ∀ ts, Field none (Nullable Threads.Recorded) (some ts) (some (.list Thread.toJson ts)) :=
    fun ts => .given (.some (Threads.recorded_list ts) (by simp [Json.list]))
  have start := GraphState.Recorded.intro (q := { label := "a\\b", edges := samplerEdges })
    (.given rfl) .omitted (.given edges) .omitted
  have stop := GraphState.Recorded.intro (q := { flaggedEnd := true, threads := some [] })
    .omitted (.given rfl) .omitted (own [])
  have idle := GraphState.Recorded.intro (q := { threads := some [⟨4294967295, "τ", .waiting⟩] })
    .omitted .omitted .omitted (own _)
  exact StateGraph.Recorded.intro (g := sampler) (.given rfl)
    (.intro (.cons start (.cons stop (.cons idle .nil)))) .omitted

theorem sampler_reads_back :
    (Json.parse sampler.toJson.compact).bind ofJson? = some sampler ∧
      (Json.parse abridgedSampler.compact).bind ofJson? = some sampler ∧
      parse abridgedSampler.compact = .error (.unknownTarget 0 18446744073709551615) := by
  have fits : sampler.Fits := by
    simp [Fits, GraphState.Fits, Edge.Fits, Thread.Fits, sampler, samplerEdges]
  obtain ⟨whole, -, refused, abridged⟩ := text_reads_back sampler fits
  obtain ⟨back, same⟩ := abridged abridgedSampler recorded_abridgedSampler
  exact ⟨whole, back, same.trans (refused _ (by decide))⟩

end StateGraph

end Statewalk
