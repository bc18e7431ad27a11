import LogSequencing.Event
import LogSequencing.Instant.Text
import LogSequencing.Serial.Json

/-!
# Events in JSON

The names of the fields, and which of them may be missing.
-/

set_option autoImplicit false
set_option relaxedAutoImplicit false

namespace LogSequencing

open Json

namespace Category

/-- A category is its name, or an object whose only member has that name and is null. -/
def ofJson? : Value → Option Category
  | .string spelling => (text? spelling).bind ofName?
  | .object [(key, .null)] => (text? key).bind ofName?
  | _ => none

instance : Stored Category := ⟨fun category ↦ .ofText category.name, ofJson?⟩

end Category

namespace Mutation

def fieldNames : List String := ["id", "category", "is_new"]

def toJson (m : Mutation) : Value :=
  .ofMembers [
    ("id", Stored.toJson m.id),
    ("category", Stored.toJson m.category),
    ("is_new", Stored.toJson m.isNew)]

def ofJson? (value : Value) : Option Mutation := do
  let [id, category, isNew] ← value.toFields? fieldNames | none
  return {
    id := ← required? Stored.ofJson? id
    category := ← required? Stored.ofJson? category
    isNew := ← required? Stored.ofJson? isNew }

instance : Stored Mutation := ⟨toJson, ofJson?⟩

end Mutation

namespace Argument

def fieldNames : List String := ["id", "category"]

def toJson (a : Argument) : Value :=
  .ofMembers [("id", Stored.toJson a.id), ("category", Stored.toJson a.category)]

def ofJson? (value : Value) : Option Argument := do
  let [id, category] ← value.toFields? fieldNames | none
  return {
    id := ← required? Stored.ofJson? id
    category := ← required? Stored.ofJson? category }

instance : Stored Argument := ⟨toJson, ofJson?⟩

end Argument

namespace Event

def fieldNames : List String :=
  ["offset", "timestamp", "workspace", "wlog_offset", "cuds", "arg_objects"]

def toJson (event : Event) : Value :=
  .ofMembers [
    ("offset", Stored.toJson event.offset),
    ("timestamp", .ofText event.time.text),
    ("workspace", Stored.toJson event.workspace),
    ("wlog_offset", Stored.toJson event.workspaceOffset),
    ("cuds", Stored.listToJson event.mutations),
    ("arg_objects", Stored.listToJson event.arguments)]

def ofJson? (value : Value) : Option Event := do
  let [offset, time, workspace, workspaceOffset, mutations, arguments] ←
    value.toFields? fieldNames | none
  return {
    offset := ← required? Stored.ofJson? offset
    time := ← required? (fun value ↦ value.toText?.bind Instant.ofText?) time
    workspace := ← required? Stored.ofJson? workspace
    workspaceOffset := ← required? Stored.ofJson? workspaceOffset
    mutations := ← withDefault? [] Stored.listOfJson? mutations
    arguments := ← withDefault? [] Stored.listOfJson? arguments }

instance : Stored Event := ⟨toJson, ofJson?⟩

end Event

end LogSequencing
