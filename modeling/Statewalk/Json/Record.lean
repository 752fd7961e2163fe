import Statewalk.Json.Basic

/-! # Records in JSON

A record with fixed field names is written as an object, or as an array of its fields in their
order.  In an object unknown members are passed over and a known one may stand only once; an
array may stop early but not go on after the last field.
-/

namespace Statewalk.Json

/-- What a record's text says about one field. -/
inductive Slot where
  /-- The field has this value. -/
  | given (value : Json)
  /-- The object has no such member. -/
  | omitted
  /-- The array ends before the field. -/
  | cutOff

namespace Slot

/-- The field has to be given. -/
def required {α : Type} (read : Json → Option α) : Slot → Option α
  | .given j => read j
  | _ => none

/-- The field may be left out of an object, or be `null`. -/
def optional {α : Type} (read : Json → Option α) : Slot → Option (Option α)
  | .given j => nullable? read j
  | .omitted => some none
  | .cutOff => none

/-- The field has a value to fall back on. -/
def orDefault {α : Type} (default : α) (read : Json → Option α) : Slot → Option α
  | .given j => read j
  | _ => some default

end Slot

/-- The values of all members with the given key. -/
def valuesOf (name : String) (members : List (Literal × Json)) : List Json :=
  members.filterMap fun m => if m.1 = some name then some m.2 else none

/-- What an object says about one field; fails if the field stands twice. -/
def memberSlot? (members : List (Literal × Json)) (name : String) : Option Slot :=
  match valuesOf name members with
  | [] => some .omitted
  | [j] => some (.given j)
  | _ => none

/-- What a text says about each field of a record. -/
def slots? (names : List String) : Json → Option (List Slot)
  | .arr items =>
    if items.length ≤ names.length then
      some (items.map .given ++ List.replicate (names.length - items.length) .cutOff)
    else none
  | .obj members =>
    if members.all (·.1.isSome) then names.mapM (memberSlot? members) else none
  | _ => none

end Statewalk.Json
