import LogSequencing.Event

/-!
# Counters

The last numbers handed out in a partition: the offset in its log, and for each workspace the
offset in the workspace's log and the last record number of either sequence. Observing an event
raises the counters to cover it and never lowers one.
-/

set_option autoImplicit false
set_option relaxedAutoImplicit false

namespace LogSequencing

/-- A number for each of some workspaces. -/
abbrev PerWorkspace (space : Space) := Std.ExtTreeMap WorkspaceId (Serial space) compare

namespace PerWorkspace

variable {space : Space}

/-- The number of a workspace, null if it has none. -/
def last (numbers : PerWorkspace space) (workspace : WorkspaceId) : Serial space :=
  numbers[workspace]?.getD .null

/-- Raises the number of a workspace, which has one from then on. -/
def raise (numbers : PerWorkspace space) (workspace : WorkspaceId) (n : Serial space) :
    PerWorkspace space :=
  numbers.insert workspace (max (last numbers workspace) n)

end PerWorkspace

structure Counters where
  /-- The last offset in the log of the partition. -/
  offset : Offset
  workspaceOffsets : PerWorkspace .offset
  ordinaryIds : PerWorkspace .record
  compactingIds : PerWorkspace .record
deriving DecidableEq

namespace Counters

def empty : Counters := ⟨.null, ∅, ∅, ∅⟩

def workspaceOffset (counters : Counters) (workspace : WorkspaceId) : Offset :=
  PerWorkspace.last counters.workspaceOffsets workspace

def ids (counters : Counters) : IdSequence → PerWorkspace .record
  | .ordinary => counters.ordinaryIds
  | .compacting => counters.compactingIds

def setIds (counters : Counters) (sequence : IdSequence) (ids : PerWorkspace .record) : Counters :=
  match sequence with
  | .ordinary => { counters with ordinaryIds := ids }
  | .compacting => { counters with compactingIds := ids }

/-- The last record number of a sequence in a workspace. -/
def lastId (counters : Counters) (sequence : IdSequence) (workspace : WorkspaceId) : RecordId :=
  PerWorkspace.last (counters.ids sequence) workspace

/-- Raises the counter of a sequence to cover a record number. -/
def coverId (workspace : WorkspaceId) (counters : Counters) (used : IdSequence × RecordId) :
    Counters :=
  counters.setIds used.1 (PerWorkspace.raise (counters.ids used.1) workspace used.2)

/-- Raises the counters to cover all that an event used. -/
def observe (counters : Counters) (event : Event) : Counters :=
  let counters := { counters with
    offset := max counters.offset event.offset
    workspaceOffsets :=
      PerWorkspace.raise counters.workspaceOffsets event.workspace event.workspaceOffset }
  event.usedIds.foldl (coverId event.workspace) counters

def observeAll (counters : Counters) (events : List Event) : Counters :=
  events.foldl observe counters

end Counters

end LogSequencing
