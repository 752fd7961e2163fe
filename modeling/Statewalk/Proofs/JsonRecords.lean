import Mathlib.Data.List.Forall2
import Statewalk.Json.Record
import Statewalk.Proofs.JsonTexts

/-! # Records in JSON are read back

`Json.Conveys` relates a way to write values with a reader that gives them back.  It is built up along the
shape of the values: numbers, texts, lists, and records whose fields may be left out when they hold their
default.
-/

namespace Statewalk.Json

/-! ## Proper values -/

theorem properItems_iff {js : List Json} : ProperItems js ↔ ∀ j ∈ js, j.Proper := by
  induction js with
  | nil => simp [ProperItems]
  | cons j js ih => simp [ProperItems, ih]

theorem properMembers_iff {ms : List (Literal × Json)} : ProperMembers ms ↔ ∀ m ∈ ms, m.2.Proper := by
  induction ms with
  | nil => simp [ProperMembers]
  | cons m ms ih => simp [ProperMembers, ih]

theorem proper_nat (n : Nat) : (nat n).Proper := by
  simp [nat, Proper, Number.Proper, Number.ofNat]

theorem proper_text (s : String) : (text s).Proper := by
  simp [text, Proper]

theorem proper_nullable {α : Type} {f : α → Json} (proper : ∀ a, (f a).Proper) (o : Option α) :
    (nullable f o).Proper := by
  cases o with
  | none => simp [nullable, Proper]
  | some a => exact proper a

/-! ## What is conveyed -/

section Conveys

variable {α : Type} {fits : α → Prop} {writes : α → Json → Prop} {read : Json → Option α}

/-- Every value that fits is read back from whatever is written for it. -/
def Conveys (fits : α → Prop) (writes : α → Json → Prop) (read : Json → Option α) : Prop :=
  ∀ a j, fits a → writes a j → j.Proper ∧ read j = some a

theorem conveys_nat (bound : Nat) : Conveys (· < bound) (fun n j => j = .nat n) (natBelow? bound) := by
  rintro n _ small rfl
  exact ⟨proper_nat n, by simp [natBelow?, nat, small]⟩

theorem conveys_text : Conveys (fun _ => True) (fun s j => j = .text s) text? := by
  rintro s _ - rfl
  exact ⟨proper_text s, rfl⟩

theorem conveys_bool : Conveys (fun _ => True) (fun b j => j = .bool b) bool? := by
  rintro b _ - rfl
  exact ⟨by simp [Proper], rfl⟩

/-- The value lists what is written for each item. -/
inductive Listed (writes : α → Json → Prop) : List α → Json → Prop where
  | intro {as : List α} {js : List Json} : List.Forall₂ writes as js → Listed writes as (.arr js)

theorem Conveys.list (h : Conveys fits writes read) :
    Conveys (fun as => ∀ a ∈ as, fits a) (Listed writes) (list? read) := by
  intro as j allFit written
  cases written with
  | @intro js written =>
    have both : (∀ j ∈ js, j.Proper) ∧ js.mapM read = some as := by
      induction written with
      | nil => simp
      | @cons a j as js first _ ih =>
        obtain ⟨fit, others⟩ := List.forall_mem_cons.1 allFit
        obtain ⟨proper, back⟩ := h a j fit first
        obtain ⟨properRest, backRest⟩ := ih others
        exact ⟨List.forall_mem_cons.2 ⟨proper, properRest⟩, by simp [back, backRest]⟩
    exact ⟨properItems_iff.2 both.1, both.2⟩

theorem listed_list {f : α → Json} (written : ∀ a, writes a (f a)) (as : List α) :
    Listed writes as (.list f as) := by
  constructor
  induction as with
  | nil => exact .nil
  | cons a as ih => exact .cons (written a) ih

theorem listed_eq (f : α → Json) (as : List α) : Listed (fun a j => j = f a) as (.list f as) := by
  apply listed_list
  exact fun _ => rfl

/-- The value is `null`, or written for what is there. -/
inductive Nullable (writes : α → Json → Prop) : Option α → Json → Prop where
  | none : Nullable writes none .null
  | some {a : α} {j : Json} : writes a j → j ≠ .null → Nullable writes (some a) j

theorem nullable_nullable (f : α → Json) (written : ∀ a, writes a (f a)) (there : ∀ a, f a ≠ .null)
    (o : Option α) : Nullable writes o (.nullable f o) := by
  cases o with
  | none => exact .none
  | some a => exact .some (written a) (there a)

theorem Conveys.nullable (h : Conveys fits writes read) :
    Conveys (fun o => ∀ a ∈ o, fits a) (Nullable writes) (nullable? read) := by
  rintro _ _ allFit (_ | ⟨written, there⟩)
  · exact ⟨by simp [Proper], rfl⟩
  · obtain ⟨proper, back⟩ := h _ _ (allFit _ rfl) written
    refine ⟨proper, ?_⟩
    unfold nullable?
    split
    · exact absurd rfl there
    · simp [back]

/-! ## Records -/

/-- A field is given as it is written, or left out if it holds its default. -/
inductive Field (default : α) (writes : α → Json → Prop) : α → Option Json → Prop where
  | given {a : α} {j : Json} : writes a j → Field default writes a (some j)
  | omitted : Field default writes default none

/-- What a record says about a field. -/
def Slot.ofOption : Option Json → Slot
  | some j => .given j
  | none => .omitted

theorem Conveys.field (h : Conveys fits writes read) {default a : α} {o : Option Json} (fit : fits a)
    (written : Field default writes a o) :
    (∀ j ∈ o, j.Proper) ∧ (Slot.ofOption o).orDefault default read = some a := by
  cases written with
  | given written =>
    obtain ⟨proper, back⟩ := h _ _ fit written
    exact ⟨by simpa using proper, back⟩
  | omitted => exact ⟨by simp, rfl⟩

theorem Conveys.required (h : Conveys fits writes read) {a : α} {j : Json} (fit : fits a) (written : writes a j) :
    j.Proper ∧ (Slot.ofOption (some j)).required read = some a :=
  h a j fit written

end Conveys

/-- The record with the fields that are given, in order. -/
def record (fields : List (String × Option Json)) : Json :=
  .object (fields.filterMap fun f => f.2.map fun j => (f.1, j))

/-- The members of a record. -/
def recordMembers (fields : List (String × Option Json)) : List (Literal × Json) :=
  fields.filterMap fun f => f.2.map fun j => (some f.1, j)

theorem record_eq (fields : List (String × Option Json)) : record fields = .obj (recordMembers fields) := by
  simp [record, recordMembers, object, List.map_filterMap, Function.comp_def]

variable {fields : List (String × Option Json)}

theorem mem_recordMembers {m : Literal × Json} :
    m ∈ recordMembers fields ↔ ∃ f ∈ fields, f.2 = some m.2 ∧ m.1 = some f.1 := by
  simp only [recordMembers, List.mem_filterMap, Option.map_eq_some_iff]
  constructor
  · rintro ⟨f, member, j, given, rfl⟩
    exact ⟨f, member, given, rfl⟩
  · rintro ⟨f, member, given, key⟩
    exact ⟨f, member, m.2, given, by rw [← key]⟩

theorem proper_record (fields : List (String × Option Json)) (proper : ∀ f ∈ fields, ∀ j ∈ f.2, j.Proper) :
    (record fields).Proper := by
  rw [record_eq]
  refine properMembers_iff.2 ?_
  intro m member
  obtain ⟨f, known, given, -⟩ := mem_recordMembers.1 member
  exact proper f known m.2 given

theorem valuesOf_recordMembers_of_not_mem {name : String} (unknown : name ∉ fields.map Prod.fst) :
    valuesOf name (recordMembers fields) = [] := by
  rw [valuesOf, List.filterMap_eq_nil_iff]
  intro m member
  obtain ⟨f, known, -, key⟩ := mem_recordMembers.1 member
  have other : f.1 ≠ name := by
    rintro rfl
    exact unknown (List.mem_map_of_mem known)
  simp [key, other]

theorem valuesOf_recordMembers (nodup : (fields.map Prod.fst).Nodup) {f : String × Option Json}
    (known : f ∈ fields) : valuesOf f.1 (recordMembers fields) = f.2.toList := by
  induction fields with
  | nil => cases known
  | cons g fields ih =>
    obtain ⟨fresh, nodup⟩ := List.nodup_cons.1 nodup
    have split : valuesOf f.1 (recordMembers (g :: fields)) =
        valuesOf f.1 (recordMembers [g]) ++ valuesOf f.1 (recordMembers fields) := by
      rw [valuesOf, valuesOf, valuesOf, ← List.filterMap_append, recordMembers, recordMembers, recordMembers,
        ← List.filterMap_append, List.singleton_append]
    rw [split]
    cases List.mem_cons.1 known with
    | inl here =>
      subst here
      rw [valuesOf_recordMembers_of_not_mem fresh]
      cases given : f.2 <;> simp [valuesOf, recordMembers, given]
    | inr later =>
      -- The first field has another name.
      have other : f.1 ∉ [g].map Prod.fst := by
        simp only [List.map_cons, List.map_nil, List.mem_singleton]
        rintro same
        exact fresh (same ▸ List.mem_map_of_mem later)
      rw [valuesOf_recordMembers_of_not_mem other, List.nil_append, ih nodup later]

theorem mapM_eq_some_map {α β : Type} {f : α → Option β} {g : α → β} {as : List α}
    (h : ∀ a ∈ as, f a = some (g a)) : as.mapM f = some (as.map g) := by
  induction as with
  | nil => rfl
  | cons a as ih =>
    obtain ⟨first, others⟩ := List.forall_mem_cons.1 h
    simp [first, ih others]

/-- A record with distinct fields says of each field what was given. -/
theorem slots?_record (fields : List (String × Option Json)) (nodup : (fields.map Prod.fst).Nodup) :
    (record fields).slots? (fields.map Prod.fst) = some (fields.map fun f => Slot.ofOption f.2) := by
  have named : (recordMembers fields).all (·.1.isSome) = true := by
    rw [List.all_eq_true]
    intro m member
    obtain ⟨f, -, -, key⟩ := mem_recordMembers.1 member
    simp [key]
  have slot : ∀ f ∈ fields, memberSlot? (recordMembers fields) f.1 = some (Slot.ofOption f.2) := by
    intro f known
    rw [memberSlot?, valuesOf_recordMembers nodup known]
    cases f.2 <;> rfl
  rw [record_eq, slots?, if_pos named, List.mapM_map]
  exact mapM_eq_some_map slot

/-! ## Objects

A record all of whose fields are given. -/

theorem object_eq_record (fields : List (String × Json)) :
    object fields = record (fields.map fun f => (f.1, some f.2)) := by
  simp [record, List.filterMap_map]

theorem proper_object (fields : List (String × Json)) (proper : ∀ f ∈ fields, f.2.Proper) :
    (object fields).Proper := by
  rw [object_eq_record]
  apply proper_record
  intro _ member j given
  obtain ⟨f, known, rfl⟩ := List.mem_map.1 member
  obtain rfl : f.2 = j := by simpa using given
  exact proper f known

theorem slots?_object (fields : List (String × Json)) (nodup : (fields.map Prod.fst).Nodup) :
    (object fields).slots? (fields.map Prod.fst) = some (fields.map fun f => .given f.2) := by
  have slots := slots?_record (fields.map fun f => (f.1, some f.2)) (by simpa [Function.comp_def] using nodup)
  rw [← object_eq_record] at slots
  simpa [Function.comp_def, Slot.ofOption] using slots

end Statewalk.Json
