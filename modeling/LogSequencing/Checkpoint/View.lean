import LogSequencing.Counters
import LogSequencing.EngineError
import LogSequencing.Storage.Namespace

/-!
# The checkpoint view

The stored counters of all partitions. A row holds the last value of one sequence; the offset in the
partition's log belongs to the null workspace. Keys are

    partition : workspace : name of the sequence

with twenty digits for either number, so that the rows of a partition stand together and in the
order of their workspaces. Rows of sequences with other names are left alone.
-/

set_option autoImplicit false
set_option relaxedAutoImplicit false

namespace LogSequencing

open Json

/-- The sequences whose last values are checkpointed. -/
inductive SequenceKind where
  | offset
  | workspaceOffset
  | id (sequence : IdSequence)
deriving DecidableEq, Repr

namespace SequenceKind

def all : List SequenceKind := [offset, workspaceOffset, id .ordinary, id .compacting]

def name : SequenceKind → String
  | offset => "sys.PLogOffsetSeq"
  | workspaceOffset => "sys.WLogOffsetSeq"
  | id .ordinary => "sys.RecIDSeq"
  | id .compacting => "sys.CRecIDSeq"

def ofName? (name : Octets) : Option SequenceKind := all.find? (Octets.ofText ·.name = name)

theorem ofName?_name (kind : SequenceKind) : ofName? (Octets.ofText kind.name) = some kind := by
  rcases kind with _ | _ | sequence
  · decide
  · decide
  · cases sequence <;> decide

end SequenceKind

/-- The last value of a sequence. -/
structure CheckpointRow where
  workspace : WorkspaceId
  kind : SequenceKind
  last : UInt64
deriving DecidableEq, Repr

/-- What is stored under the key of a sequence. -/
structure StoredLast where
  last : UInt64
deriving DecidableEq, Repr

namespace StoredLast

def fieldNames : List String := ["last"]

def ofJson? (value : Value) : Option StoredLast := do
  let [last] ← value.toFields? fieldNames | none
  return ⟨← required? Stored.ofJson? last⟩

instance : Stored StoredLast := ⟨fun row ↦ .ofMembers [("last", Stored.toJson row.last)], ofJson?⟩

end StoredLast

namespace Key

/-- A number as it stands in keys. -/
def number {space : Space} (n : Serial space) : Octets :=
  Octets.ofAscii (Decimal.padded 20 n.val.toNat)

/-- The octets that begin the keys of a partition. -/
def partitionStart (partition : PartitionId) : Octets := number partition ++ [0x3a]

/-- The parts before and after the first colon. -/
def cut? (key : Octets) : Option (Octets × Octets) :=
  match key.dropWhile (· ≠ 0x3a) with
  | [] => none
  | _ :: rest => some (key.takeWhile (· ≠ 0x3a), rest)

/-- A workspace as it stands in a key. -/
def readWorkspace (octets : Octets) : Except Decimal.Malformed WorkspaceId :=
  (Decimal.read (Octets.toChars octets)).map Serial.mk

end Key

namespace Checkpoint

def sequences : Namespace := ⟨"sys.sequences"⟩

def sequenceKey (partition : PartitionId) (workspace : WorkspaceId) (kind : SequenceKind) :
    Octets :=
  Key.partitionStart partition ++ Key.number workspace ++ 0x3a :: Octets.ofText kind.name

/-- The workspace and the name of the sequence in a key. -/
def readKey (key : Octets) : Except EngineError (WorkspaceId × Octets) :=
  let refuse (corruption : Corruption) := EngineError.corrupted (Octets.toTextLossy key) corruption
  match (Key.cut? key).bind fun (_, rest) ↦ Key.cut? rest with
  | none => .error (refuse .checkpointKey)
  | some (workspace, name) =>
    match Key.readWorkspace workspace with
    | .error fault => .error (refuse (.workspace fault))
    | .ok workspace => .ok (workspace, name)

/-- Counters with the last value of a sequence put in. -/
def setLast (counters : Counters) (workspace : WorkspaceId) (kind : SequenceKind) (last : UInt64) :
    Counters :=
  match kind with
  | .offset => { counters with offset := ⟨last⟩ }
  | .workspaceOffset =>
    { counters with workspaceOffsets := counters.workspaceOffsets.insert workspace ⟨last⟩ }
  | .id sequence => counters.setIds sequence ((counters.ids sequence).insert workspace ⟨last⟩)

/-- Puts a stored row into counters. -/
def readRow (counters : Counters) (row : Octets × StoredLast) : Except EngineError Counters := do
  let (workspace, name) ← readKey row.1
  match SequenceKind.ofName? name with
  | some kind => return setLast counters workspace kind row.2.last
  | none => return counters

def ofRows (rows : List (Octets × StoredLast)) : Except EngineError Counters :=
  rows.foldlM readRow .empty

variable {β : Type} [Backend β]

/-- The stored counters of a partition. -/
def readPartition (store : β) (partition : PartitionId) : Except EngineError Counters × β :=
  let (result, store) := sequences.scan store (Key.partitionStart partition)
  ((result.mapError EngineError.storage).bind ofRows, store)

def encodeRow (partition : PartitionId) (row : CheckpointRow) : Octets × StoredLast :=
  (sequenceKey partition row.workspace row.kind, ⟨row.last⟩)

/-- Writes rows of a partition in one batch. -/
def putBatch (store : β) (partition : PartitionId) (rows : List CheckpointRow) :
    Except StorageError Unit × β :=
  sequences.putBatch store (rows.map (encodeRow partition))

end Checkpoint

end LogSequencing
