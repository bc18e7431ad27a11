import LogSequencing.Sequencer

/-!
# Recovery

The recovery task waits until no flush is in flight, clears the counters, replays the log on the
checkpoint and installs the result. An attempt that fails leaves the counters empty and is made again
after a growing delay. A shutdown ends the task before its next attempt.
-/

set_option autoImplicit false
set_option relaxedAutoImplicit false

namespace LogSequencing

/-- What a task takes notice of first when it waits for two things that have both happened. -/
inductive Preference where
  | progress
  | stop
deriving DecidableEq, Repr

namespace Sequencer

/-- The task after one more failure. -/
def backOff (s : Sequencer) (now failures : Nat) : Sequencer :=
  { s with recovery := .backingOff (failures + 1) (now + s.config.retryDelay (failures + 1)) }

/-- Takes notice of a shutdown or of the end of a flush, if one of them has happened. -/
def leaveWait? (s : Sequencer) (failures : Nat) (preference : Preference) : Option Sequencer :=
  let stop := { s with recovery := .checking failures }
  let progress := { s with recovery := .clearing failures }
  match s.isStopping, s.flusher.active, preference with
  | false, true, _ => none
  | false, false, _ => some progress
  | true, true, _ => some stop
  | true, false, .progress => some progress
  | true, false, .stop => some stop

/-- Makes rebuilt counters the ones to allocate from. -/
def install (s : Sequencer) (counters : Counters) : Sequencer :=
  { s with counters, status := .ready, recovery := .absent }

/-- One step of the recovery task, unless it has to wait. -/
def recoveryStep? {β σ : Type} [Backend β] [LogSource σ] (s : Sequencer) (now : Nat)
    (preference : Preference) (store : β) (log : σ) : Option (Sequencer × β × σ) :=
  match s.recovery with
  | .absent => none
  | .checking failures =>
    let recovery := if s.isStopping then .absent else .awaitingFlusher failures
    some ({ s with recovery }, store, log)
  | .awaitingFlusher failures => (s.leaveWait? failures preference).map (·, store, log)
  | .clearing failures =>
    some ({ s with counters := .empty, recovery := .readingCheckpoint failures }, store, log)
  | .readingCheckpoint failures =>
    match Checkpoint.readPartition store s.partition with
    | (.error _, store) => some (s.backOff now failures, store, log)
    | (.ok counters, store) =>
      some ({ s with recovery := .readingLog failures counters }, store, log)
  | .readingLog failures checkpoint =>
    let (reading, log) := LogSource.readFrom log s.partition checkpoint.offset
    match Checkpoint.observeReading checkpoint reading with
    | .error _ => some (s.backOff now failures, store, log)
    | .ok counters => some ({ s with recovery := .installing counters }, store, log)
  | .installing counters => some (s.install counters, store, log)
  | .backingOff failures wake =>
    if wake ≤ now ∨ s.isStopping then
      some ({ s with recovery := .checking failures }, store, log)
    else
      none

/-- When the recovery task will try again, if it is waiting for that. -/
def recoveryWake? (s : Sequencer) : Option Nat :=
  match s.recovery with
  | .backingOff _ wake => some wake
  | _ => none

end Sequencer

end LogSequencing
