import LogSequencing.Checkpoint.Replay
import LogSequencing.Flusher
import LogSequencing.Sequencer.Status

/-!
# The sequencer of a partition

A sequencer hands out offsets and record numbers while an event is being built. This module has its
state and the requests that take effect at once. Its recovery task and the calls that may have to
wait are in `LogSequencing.Sequencer.Recovery` and `LogSequencing.Sequencer.Call`.

A request that violates the contract leaves the changes made before it was noticed.
-/

set_option autoImplicit false
set_option relaxedAutoImplicit false

namespace LogSequencing

/-- Where the recovery task stands; `failures` counts the attempts that failed, like those of the worker
without a bound, where a count in 32 bits would overflow after 4294967295 of them. -/
inductive RecoveryTask where
  /-- There is no task, or it has ended. -/
  | absent
  /-- Is about to look whether a shutdown was requested. -/
  | checking (failures : Nat)
  /-- Waits until no flush is in flight. -/
  | awaitingFlusher (failures : Nat)
  /-- Is about to clear the counters. -/
  | clearing (failures : Nat)
  | readingCheckpoint (failures : Nat)
  | readingLog (failures : Nat) (checkpoint : Counters)
  /-- Has rebuilt the counters and is about to install them. -/
  | installing (counters : Counters)
  /-- Waits before the next attempt. -/
  | backingOff (failures : Nat) (wake : Nat)
deriving DecidableEq

def RecoveryTask.isAbsent : RecoveryTask → Bool
  | absent => true
  | _ => false

structure Sequencer where
  partition : PartitionId
  config : Config
  status : Status
  counters : Counters
  /-- The workspace of the event in progress. -/
  workspace : WorkspaceId
  /-- Whether a shutdown has been requested. -/
  isStopping : Bool
  /-- Whether every handle on the sequencer has been dropped. -/
  isDropped : Bool
  flusher : Flusher
  recovery : RecoveryTask
  /-- The number of recovery tasks begun. -/
  recoveries : Nat
  /-- Whether nobody has waited for the last recovery task to end. -/
  recoveryUnclaimed : Bool
deriving DecidableEq

namespace Sequencer

def create (partition : PartitionId) (config : Config) : Sequencer where
  partition
  config
  status := .created
  counters := .empty
  workspace := .null
  isStopping := false
  isDropped := false
  flusher := .start
  recovery := .absent
  recoveries := 0
  recoveryUnclaimed := false

/-- The recovery task keeps a dropped sequencer alive until it ends. -/
def isReleased (s : Sequencer) : Bool := s.isDropped && s.recovery.isAbsent

/-- Forgets the last handle on the sequencer. -/
def drop (s : Sequencer) : Sequencer := { s with isDropped := true }

/-- Begins a recovery task. -/
def startRecovery (s : Sequencer) : Sequencer := { s with
  status := .recovering
  recovery := .checking 0
  recoveries := s.recoveries + 1
  recoveryUnclaimed := true }

/-- What a request does, provided that the status allows it. -/
def guarded {α : Type} (s : Sequencer) (request : Request)
    (action : Sequencer → Except Violation α × Sequencer) : Except Violation α × Sequencer :=
  if s.status = request.status then
    action s
  else
    (.error (.wrongStatus s.partition request s.status), s)

/-- Begins to load the counters. -/
def recover (s : Sequencer) : Except Violation Unit × Sequencer :=
  s.guarded .recovery fun s ↦ (.ok (), s.startRecovery)

/-- Reserves the next offset in the log of a workspace. -/
def takeWorkspaceOffset (s : Sequencer) : Except Violation (Offset × Offset) × Sequencer :=
  match (s.counters.workspaceOffset s.workspace).next? with
  | none => (.error .offsetsExhausted, s)
  | some last =>
    (.ok (s.counters.offset, last), { s with
      status := .eventing
      counters := { s.counters with
        workspaceOffsets := s.counters.workspaceOffsets.insert s.workspace last } })

/-- Reserves the next offset in the log of the partition and then one in that of a workspace. -/
def takeOffsets (s : Sequencer) (workspace : WorkspaceId) :
    Except Violation (Offset × Offset) × Sequencer :=
  match s.counters.offset.next? with
  | none => (.error .offsetsExhausted, { s with workspace })
  | some offset =>
    takeWorkspaceOffset { s with workspace, counters := { s.counters with offset } }

def idRequest : IdSequence → Request
  | .ordinary => .nextOrdinaryId
  | .compacting => .nextCompactingId

/-- The next record number of the event's workspace. -/
def nextId (s : Sequencer) (sequence : IdSequence) : Except Violation RecordId × Sequencer :=
  s.guarded (idRequest sequence) fun s ↦
    match (s.counters.lastId sequence s.workspace).next? with
    | none => (.error .recordIdsExhausted, s)
    | some id =>
      let ids := (s.counters.ids sequence).insert s.workspace id
      (.ok id, { s with counters := s.counters.setIds sequence ids })

/-- What the event in progress leaves to be checkpointed. -/
def finishedEvent (s : Sequencer) : FinishedEvent where
  offset := s.counters.offset
  workspace := s.workspace
  workspaceOffset := s.counters.workspaceOffset s.workspace
  ordinaryId := s.counters.lastId .ordinary s.workspace
  compactingId := s.counters.lastId .compacting s.workspace

/-- Closes the event and queues its counters for a checkpoint. -/
def finishEvent (s : Sequencer) : Except Violation Unit × Sequencer :=
  s.guarded .finishEvent fun s ↦
    (.ok (), { s with
      status := .ready
      flusher := s.flusher.collect s.config.flushThreshold.toNat s.finishedEvent })

/-- Abandons the event. What was handed out may be in use elsewhere, so the counters are rebuilt
and not put back. -/
def cancelEvent (s : Sequencer) : Except Violation Unit × Sequencer :=
  s.guarded .cancelEvent fun s ↦ (.ok (), s.startRecovery)

/-- One step of the flusher's worker, unless it has to wait. A dropped sequencer may still be held in
the background. -/
def workerStep? {β : Type} [Backend β] (s : Sequencer) (now : Nat) (isHeld : Bool) (store : β) :
    Option (Sequencer × β) :=
  let signals : Flusher.Signals := ⟨now, s.isStopping, s.isReleased && !isHeld⟩
  (s.flusher.workerStep? s.config s.partition signals store).map
    fun (flusher, store) ↦ ({ s with flusher }, store)

end Sequencer

end LogSequencing
