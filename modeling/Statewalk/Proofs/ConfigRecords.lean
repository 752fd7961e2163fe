import Statewalk.Config
import Statewalk.Proofs.JsonRecords

/-! # Texts of configurations

An object may give any of the settings, in any order and beside members that mean nothing here.  What is read
from it is the default configuration with the given settings put in, unless a limit of the outcome is zero.
-/

namespace Statewalk

namespace Json

variable {name : String} {members : List (Literal × Json)}

theorem mem_valuesOf {j : Json} : j ∈ valuesOf name members ↔ (some name, j) ∈ members := by
  simp only [valuesOf, List.mem_filterMap, Option.ite_none_right_eq_some, Option.some.injEq]
  constructor
  · rintro ⟨m, member, key, rfl⟩
    exact key ▸ member
  · exact fun member => ⟨_, member, rfl, rfl⟩

theorem length_valuesOf : (valuesOf name members).length = members.countP (·.1 = some name) := by
  rw [valuesOf, List.length_filterMap_eq_countP]
  refine List.countP_congr ?_
  intro m _
  by_cases key : m.1 = some name <;> simp [key]

end Json

open Json (Conveys Nullable conveys_nat conveys_bool)

/-! ## What is written for a setting -/

/-- A size is written as its number of bytes, or as a text that denotes it. -/
inductive MemorySize.Written (m : MemorySize) : Json → Prop where
  | bytes : m.Written (.nat m.bytes)
  | text {s : String} : MemorySize.parse s = .ok m → m.Written (.text s)

theorem MemorySize.conveys :
    Conveys (fun m : MemorySize => m.bytes < wordLimit) MemorySize.Written MemorySize.ofJson? := by
  rintro m _ small (_ | denotes)
  · obtain ⟨proper, read⟩ := conveys_nat wordLimit m.bytes _ small rfl
    refine ⟨proper, ?_⟩
    exact congrArg (Option.map MemorySize.mk) read
  · rename_i s
    refine ⟨Json.proper_text s, ?_⟩
    rw [MemorySize.parse] at denotes
    split at denotes
    · rename_i read
      cases denotes
      exact read
    · cases denotes

theorem StrategyKind.conveys :
    Conveys (fun _ => True) (fun k j => j = StrategyKind.toJson k) StrategyKind.ofJson? := by
  rintro k _ - rfl
  cases k <;> exact ⟨Json.proper_text _, by decide⟩

namespace Config

/-- The settings that a record may give. -/
inductive Setting where
  | depthLimit
  | matchByMinDepth
  | minFreeMemory
  | maxMemory
  | continueOnViolation
  | pathLimit
  | queueLimit
  | pathSensitive
  | probeInterval
  | strategy
  | seed
deriving DecidableEq

namespace Setting

/-- All settings, in the order of the record. -/
def all : List Setting :=
  [.depthLimit, .matchByMinDepth, .minFreeMemory, .maxMemory, .continueOnViolation, .pathLimit, .queueLimit,
    .pathSensitive, .probeInterval, .strategy, .seed]

/-- The member that gives the setting. -/
def label : Setting → String
  | .depthLimit => "depth_limit"
  | .matchByMinDepth => "match_by_min_depth"
  | .minFreeMemory => "min_free_memory"
  | .maxMemory => "max_memory"
  | .continueOnViolation => "continue_on_violation"
  | .pathLimit => "path_limit"
  | .queueLimit => "queue_limit"
  | .pathSensitive => "path_sensitive"
  | .probeInterval => "probe_interval_ms"
  | .strategy => "strategy"
  | .seed => "seed"

/-- The value is one that may be written for the setting of a configuration. -/
def Gives (c : Config) : Setting → Json → Prop
  | .depthLimit, j => j = .nat c.depthLimit
  | .matchByMinDepth, j => j = .bool c.matchByMinDepth
  | .minFreeMemory, j => c.minFreeMemory.Written j
  | .maxMemory, j => Nullable MemorySize.Written c.maxMemory j
  | .continueOnViolation, j => j = .bool c.continueOnViolation
  | .pathLimit, j => j = .nat c.pathLimit
  | .queueLimit, j => Nullable (fun n j => j = .nat n) c.queueLimit j
  | .pathSensitive, j => j = .bool c.pathSensitive
  | .probeInterval, j => Nullable (fun n j => j = .nat n) c.probeInterval j
  | .strategy, j => j = c.strategy.toJson
  | .seed, j => j = .nat c.seed

theorem map_label_all : all.map label = fieldNames := rfl

end Setting

/-- The members give exactly the settings `T` of the configuration, each of them once, in any order; what the
    other members are does not matter. -/
structure Given (c : Config) (T : Setting → Bool) (members : List (Literal × Json)) : Prop where
  /-- Every key denotes a text. -/
  named : ∀ m ∈ members, m.1.isSome = true
  once : ∀ f : Setting, members.countP (·.1 = some f.label) = if T f then 1 else 0
  gives : ∀ (f : Setting) (j : Json), (some f.label, j) ∈ members → f.Gives c j

/-- The configuration `base` with the settings `T` of another put in. -/
def overridden (T : Setting → Bool) (c base : Config) : Config where
  depthLimit := if T .depthLimit then c.depthLimit else base.depthLimit
  matchByMinDepth := if T .matchByMinDepth then c.matchByMinDepth else base.matchByMinDepth
  minFreeMemory := if T .minFreeMemory then c.minFreeMemory else base.minFreeMemory
  maxMemory := if T .maxMemory then c.maxMemory else base.maxMemory
  continueOnViolation := if T .continueOnViolation then c.continueOnViolation else base.continueOnViolation
  pathLimit := if T .pathLimit then c.pathLimit else base.pathLimit
  queueLimit := if T .queueLimit then c.queueLimit else base.queueLimit
  pathSensitive := if T .pathSensitive then c.pathSensitive else base.pathSensitive
  probeInterval := if T .probeInterval then c.probeInterval else base.probeInterval
  strategy := if T .strategy then c.strategy else base.strategy
  seed := if T .seed then c.seed else base.seed

/-- All numbers of the configuration are words. -/
structure Fits (c : Config) : Prop where
  depthLimit : c.depthLimit < wordLimit
  minFreeMemory : c.minFreeMemory.bytes < wordLimit
  maxMemory : ∀ m ∈ c.maxMemory, m.bytes < wordLimit
  pathLimit : c.pathLimit < wordLimit
  queueLimit : ∀ n ∈ c.queueLimit, n < wordLimit
  probeInterval : ∀ n ∈ c.probeInterval, n < wordLimit
  seed : c.seed < wordLimit

section

variable {c : Config} {T : Setting → Bool} {members : List (Literal × Json)}

/-- A setting is given once or not at all. -/
theorem Given.values (given : c.Given T members) (f : Setting) :
    (T f = true ∧ ∃ j, Json.valuesOf f.label members = [j] ∧ f.Gives c j) ∨
      (T f = false ∧ Json.valuesOf f.label members = []) := by
  have count := Json.length_valuesOf.trans (given.once f)
  cases asked : T f with
  | true =>
    obtain ⟨j, only⟩ := List.length_eq_one_iff.1 (by simpa [asked] using count)
    exact .inl ⟨rfl, j, only, given.gives f j (Json.mem_valuesOf.1 (by simp [only]))⟩
  | false => exact .inr ⟨rfl, List.length_eq_zero_iff.1 (by simpa [asked] using count)⟩

/-- What the members say about a setting. -/
def slot (members : List (Literal × Json)) (f : Setting) : Json.Slot :=
  .ofOption (Json.valuesOf f.label members).head?

theorem Given.slots? (given : c.Given T members) :
    (Json.obj members).slots? fieldNames = some (Setting.all.map (slot members)) := by
  rw [← Setting.map_label_all, Json.slots?, if_pos (List.all_eq_true.2 given.named), List.mapM_map]
  apply Json.mapM_eq_some_map
  intro f _
  obtain ⟨-, j, values, -⟩ | ⟨-, values⟩ := given.values f <;>
    simp [Json.memberSlot?, slot, values, Json.Slot.ofOption]

/-- A setting has the value of the configuration where it is given, and its default elsewhere. -/
theorem Given.orDefault (given : c.Given T members) (f : Setting) {α : Type} {fits : α → Prop}
    {writes : α → Json → Prop} {read : Json → Option α} (h : Conveys fits writes read) (default : α) {a : α}
    (fit : fits a) (written : ∀ j, f.Gives c j → writes a j) :
    (slot members f).orDefault default read = some (if T f then a else default) := by
  obtain ⟨asked, j, values, gives⟩ | ⟨asked, values⟩ := given.values f
  · rw [slot, values, asked]
    exact (h a j fit (written j gives)).2
  · rw [slot, values, asked]
    rfl

theorem ofJson?_of_given (fits : c.Fits) (given : c.Given T members) :
    ofJson? (.obj members) = some (overridden T c {}) := by
  have word : Conveys (· < wordLimit) (fun n j => j = .nat n) Json.word64? := conveys_nat wordLimit
  have size := MemorySize.conveys
  simp [ofJson?, given.slots?, Setting.all, overridden,
    given.orDefault .depthLimit word _ fits.depthLimit fun _ => id,
    given.orDefault .matchByMinDepth conveys_bool _ trivial fun _ => id,
    given.orDefault .minFreeMemory size _ fits.minFreeMemory fun _ => id,
    given.orDefault .maxMemory size.nullable _ fits.maxMemory fun _ => id,
    given.orDefault .continueOnViolation conveys_bool _ trivial fun _ => id,
    given.orDefault .pathLimit word _ fits.pathLimit fun _ => id,
    given.orDefault .queueLimit word.nullable _ fits.queueLimit fun _ => id,
    given.orDefault .pathSensitive conveys_bool _ trivial fun _ => id,
    given.orDefault .probeInterval word.nullable _ fits.probeInterval fun _ => id,
    given.orDefault .strategy StrategyKind.conveys _ trivial fun _ => id,
    given.orDefault .seed word _ fits.seed fun _ => id]

/-! ## The record of a configuration -/

theorem given_toJson (c : Config) : ∃ members, c.toJson = .obj members ∧ c.Given (fun _ => true) members := by
  refine ⟨_, rfl, ?_, ?_, ?_⟩
  · simp
  · intro f
    cases f <;> rfl
  · have number (o : Option Nat) : Nullable (fun n j => j = .nat n) o (.nullable .nat o) := by
      apply Json.nullable_nullable <;> simp [Json.nat]
    have size (o : Option MemorySize) : Nullable MemorySize.Written o (.nullable MemorySize.toJson o) :=
      Json.nullable_nullable MemorySize.toJson (fun _ => .bytes) (fun _ => by simp [MemorySize.toJson, Json.nat]) o
    intro f j member
    cases f with
    | minFreeMemory =>
      obtain rfl : j = c.minFreeMemory.toJson := by simpa [Setting.label] using member
      exact .bytes
    | maxMemory =>
      obtain rfl : j = .nullable MemorySize.toJson c.maxMemory := by simpa [Setting.label] using member
      exact size c.maxMemory
    | queueLimit =>
      obtain rfl : j = .nullable .nat c.queueLimit := by simpa [Setting.label] using member
      exact number c.queueLimit
    | probeInterval =>
      obtain rfl : j = .nullable .nat c.probeInterval := by simpa [Setting.label] using member
      exact number c.probeInterval
    | _ => simpa [Setting.label, Setting.Gives] using member

theorem proper_toJson (c : Config) : c.toJson.Proper := by
  refine Json.properMembers_iff.2 ?_
  have size (m : MemorySize) : m.toJson.Proper := Json.proper_nat m.bytes
  simp [Json.proper_nat, size, Json.proper_nullable, StrategyKind.toJson, Json.proper_text, Json.Proper]

/-- A record that gives all settings leaves nothing to the defaults. -/
theorem overridden_all (c base : Config) : overridden (fun _ => true) c base = c := rfl

theorem ofJson?_toJson (fits : c.Fits) : ofJson? c.toJson = some c := by
  obtain ⟨members, written, given⟩ := given_toJson c
  rw [written, ofJson?_of_given fits given, overridden_all]

/-! ## Limits that are zero -/

/-- The limits in the order in which they are checked. -/
def limits (c : Config) : List (Limit × Option Nat) :=
  [(.depth, some c.depthLimit), (.path, some c.pathLimit), (.queue, c.queueLimit),
    (.probeInterval, c.probeInterval)]

/-- The limit is zero and none before it is. -/
def FirstZero (c : Config) (l : Limit) : Prop :=
  ∃ before after, c.limits = before ++ (l, some 0) :: after ∧ ∀ x ∈ before, x.2 ≠ some 0

theorem zeroLimit?_eq_find? (c : Config) :
    c.zeroLimit? = (c.limits.find? fun x => x.2 = some 0).map Prod.fst := by
  by_cases depth : c.depthLimit = 0 <;> by_cases path : c.pathLimit = 0 <;>
    by_cases queue : c.queueLimit = some 0 <;> by_cases probe : c.probeInterval = some 0 <;>
    simp [zeroLimit?, limits, depth, path, queue, probe]

theorem zeroLimit?_eq_some_iff {l : Limit} : c.zeroLimit? = some l ↔ c.FirstZero l := by
  simp only [zeroLimit?_eq_find?, Option.map_eq_some_iff, List.find?_eq_some_iff_append]
  constructor
  · rintro ⟨⟨l, n⟩, ⟨zero, before, after, split, positive⟩, rfl⟩
    obtain rfl : n = some 0 := by simpa using zero
    exact ⟨before, after, split, by simpa using positive⟩
  · rintro ⟨before, after, split, positive⟩
    exact ⟨(l, some 0), ⟨by simp, before, after, split, by simpa using positive⟩, rfl⟩

theorem parse_of_read {s : String} (read : (Json.parse s).bind ofJson? = some c) :
    parse s = c.zeroLimit?.elim (.ok c) fun l => .error (.zero l) := by
  rw [parse, read]
  cases zero : c.zeroLimit? <;> simp [validate, zero, Except.map]

theorem validate_eq_ok_iff : c.validate = .ok () ↔ c.zeroLimit? = none := by
  cases zero : c.zeroLimit? <;> simp [validate, zero]

/-- From a text that gives some settings of a configuration comes the default configuration with these
    settings put in, or the first of its limits that is zero.  The texts of a valid configuration give it
    back. -/
theorem text_overrides_defaults (fits : c.Fits) (given : c.Given T members) {s : String}
    (written : Json.parse s = some (.obj members)) :
    (Json.parse s).bind ofJson? = some (overridden T c {}) ∧
      (parse s = .ok (overridden T c {}) ↔ (overridden T c {}).validate = .ok ()) ∧
      ((overridden T c {}).validate ≠ .ok () → ∃ l, parse s = .error (.zero l)) ∧
      (∀ l, parse s = .error (.zero l) ↔ (overridden T c {}).FirstZero l) ∧
      (c.validate = .ok () → parse c.toJson.compact = .ok c ∧ parse c.toJson.pretty = .ok c) := by
  have read : (Json.parse s).bind ofJson? = some (overridden T c {}) := by
    rw [written]
    exact ofJson?_of_given fits given
  refine ⟨read, ?_, ?_, ?_, ?_⟩
  · rw [parse_of_read read, validate_eq_ok_iff]
    cases (overridden T c {}).zeroLimit? <;> simp
  · rw [parse_of_read read, ne_eq, validate_eq_ok_iff]
    cases (overridden T c {}).zeroLimit? <;> simp
  · intro l
    rw [parse_of_read read, ← zeroLimit?_eq_some_iff]
    cases (overridden T c {}).zeroLimit? <;> simp
  · intro valid
    have back {s : String} (spelled : Json.parse s = some c.toJson) : parse s = .ok c := by
      have read : (Json.parse s).bind ofJson? = some c := by
        rw [spelled]
        exact ofJson?_toJson fits
      rw [parse_of_read read, validate_eq_ok_iff.1 valid, Option.elim_none]
    exact ⟨back (Json.parse_compact c.proper_toJson), back (Json.parse_pretty c.proper_toJson)⟩

end

/-- Members out of order beside some that mean nothing, with a size in words and a limit of zero. -/
def scattered : List (Literal × Json) :=
  [(some "seed", .nat (wordLimit - 1)), (some "colour", .list .nat [3]), (some "max_memory", .text " +2 k\n"),
    (some "queue_limit", .nat 0), (some "colour", .null)]

theorem scattered_refused : parse (Json.obj scattered).pretty = .error (.zero .queue) := by
  let c : Config := { depthLimit := 0, maxMemory := some ⟨2048⟩, queueLimit := some 0, seed := wordLimit - 1 }
  have fits : c.Fits := by
    constructor <;> decide
  have given : c.Given (fun f => f = .maxMemory || f = .queueLimit || f = .seed) scattered := by
    refine ⟨by decide, fun f => by cases f <;> decide, ?_⟩
    intro f j member
    cases f with
    | maxMemory =>
      obtain rfl : j = .text " +2 k\n" := by simpa [scattered, Setting.label] using member
      exact .some (.text (by rfl)) (by simp [Json.text])
    | queueLimit =>
      obtain rfl : j = .nat 0 := by simpa [scattered, Setting.label] using member
      exact .some rfl (by simp [Json.nat])
    | seed => simpa [scattered, Setting.label, Setting.Gives] using member
    | _ => simp [scattered, Setting.label] at member
  have proper : (Json.obj scattered).Proper := by
    refine Json.properMembers_iff.2 ?_
    simp [scattered, Json.proper_nat, Json.proper_text, Json.list, Json.Proper, Json.ProperItems]
  exact ((text_overrides_defaults fits given (Json.parse_pretty proper)).2.2.2.1 .queue).2
    ⟨[(.depth, some (wordLimit - 1)), (.path, some 1)], [(.probeInterval, none)], rfl, by decide⟩

end Config

end Statewalk
