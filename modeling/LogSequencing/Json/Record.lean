import LogSequencing.Json.Reader

/-!
# Records in JSON

A record is given as an object of named fields or as an array of its fields in order. By name, the
fields may come in any order, unknown ones are ignored, and none may come twice; by position,
fields at the end may be missing. What a missing field means is for the record to say.

`Stored` is what can be kept as JSON text.
-/

set_option autoImplicit false
set_option relaxedAutoImplicit false

namespace LogSequencing.Json

/-- Puts a member into its place among the fields read so far. -/
def placeField? (names : List String) (fields : List (Option Value)) (key : Octets)
    (value : Value) : Option (List (Option Value)) := do
  match names.idxOf? (← text? key) with
  | none => return fields
  | some i =>
    match fields[i]? with
    | some none => return fields.set i (some value)
    | _ => none

/-- The fields of a record in the order of their names, `none` for each one that is missing. -/
def Value.toFields? (names : List String) : Value → Option (List (Option Value))
  | .object members =>
    members.foldlM (fun fields (key, value) ↦ placeField? names fields key value)
      (names.map fun _ ↦ none)
  | .array items =>
    if items.length ≤ names.length then
      some (items.map some ++ List.replicate (names.length - items.length) none)
    else
      none
  | _ => none

/-- A field that must be there. -/
def required? {α : Type} (read : Value → Option α) (field : Option Value) : Option α :=
  field.bind read

/-- A field that has a value of its own when it is missing. -/
def withDefault? {α : Type} (default : α) (read : Value → Option α) : Option Value → Option α
  | none => some default
  | some value => read value

/-- What can be kept as JSON text. -/
class Stored (α : Type) where
  toJson : α → Value
  ofJson? : Value → Option α

namespace Stored

variable {α : Type} [Stored α]

def encode (value : α) : Octets := (toJson value).print

def decode? (octets : Octets) : Option α := do ofJson? (← Value.ofOctets? octets)

/-- A list is an array of its items. -/
def listToJson (items : List α) : Value := .array (items.map toJson)

def listOfJson? (value : Value) : Option (List α) := do (← value.toItems?).mapM ofJson?

instance : Stored UInt64 := ⟨Value.ofUInt64, Value.toUInt64?⟩

instance : Stored String := ⟨Value.ofText, Value.toText?⟩

instance : Stored Bool := ⟨Value.bool, Value.toBool?⟩

end Stored

end LogSequencing.Json
