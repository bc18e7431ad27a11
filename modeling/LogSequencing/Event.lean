import LogSequencing.Instant
import LogSequencing.Serial

/-!
# Events

An event is one entry of a partition log. It tells which offsets it took in the log of its
partition and in the log of its workspace, and which records it created, changed or was given as
arguments. `Event.usedIds` are the record numbers that the workspace's two sequences handed out for
it.
-/

set_option autoImplicit false
set_option relaxedAutoImplicit false

namespace LogSequencing

/-- The two sequences of record numbers in a workspace. -/
inductive IdSequence where
  | ordinary
  | compacting
deriving DecidableEq, Repr

/-- The kind of record that a mutation or an argument is about. -/
inductive Category where
  | cDoc
  | cRecord
  | oDoc
  | oRecord
  | wDoc
  | wRecord
  | object
  | view
deriving DecidableEq, Repr

namespace Category

def all : List Category := [cDoc, cRecord, oDoc, oRecord, wDoc, wRecord, object, view]

def name : Category → String
  | cDoc => "CDoc"
  | cRecord => "CRecord"
  | oDoc => "ODoc"
  | oRecord => "ORecord"
  | wDoc => "WDoc"
  | wRecord => "WRecord"
  | object => "Object"
  | view => "View"

def ofName? (name : String) : Option Category := all.find? (·.name = name)

/-- The sequence that numbers the records of a category. Views are found by value and have no
number of their own. -/
def idSequence? : Category → Option IdSequence
  | cDoc | cRecord => some .compacting
  | oDoc | oRecord | wDoc | wRecord | object => some .ordinary
  | view => none

theorem ofName?_name (category : Category) : ofName? category.name = some category := by
  cases category <;> decide

end Category

/-- A record that an event creates, or updates if it is not new. -/
structure Mutation where
  id : RecordId
  category : Category
  isNew : Bool
deriving DecidableEq, Repr

/-- An object made for the arguments of an event. -/
structure Argument where
  id : RecordId
  category : Category
deriving DecidableEq, Repr

structure Event where
  /-- Its place in the log of the partition. -/
  offset : Offset
  time : Instant
  workspace : WorkspaceId
  /-- Its place in the log of the workspace. -/
  workspaceOffset : Offset
  mutations : List Mutation
  arguments : List Argument
deriving DecidableEq, Repr

namespace Mutation

/-- The number that a mutation took from a sequence. An update takes none. -/
def usedId? (m : Mutation) : Option (IdSequence × RecordId) :=
  if m.isNew then m.category.idSequence?.map (·, m.id) else none

end Mutation

namespace Event

/-- The numbers that an event took from the sequences of its workspace: those of new records in
the sequence of their category, and those of arguments always in the ordinary one. -/
def usedIds (event : Event) : List (IdSequence × RecordId) :=
  event.mutations.filterMap Mutation.usedId? ++ event.arguments.map (.ordinary, ·.id)

/-- The event with its time cut to milliseconds, which is all that a log keeps of it. -/
def cutToMilliseconds (event : Event) : Event :=
  { event with time := .ofMilliseconds event.time.milliseconds }

end Event

end LogSequencing
