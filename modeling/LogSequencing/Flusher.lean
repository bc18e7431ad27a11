import LogSequencing.Checkpoint.Batch

/-!
# The flusher

Checkpoints are written behind the client's back. Finished events are merged into a pending batch
(`Flusher.collect`), which is handed to a worker once it is large enough and no flush is in flight
(`Flusher.handOff`). The worker writes one batch at a time and tries again, after a growing delay,
until the batch has landed or a shutdown tells it to give up (`Flusher.workerStep?`).

The flag `active` is up from the hand-off until the worker is through with the batch.
-/

set_option autoImplicit false
set_option relaxedAutoImplicit false

namespace LogSequencing

/-- Where the worker stands. The failures of a batch are counted without a bound here, where a count in
32 bits would overflow after 4294967295 of them. -/
inductive Worker where
  /-- Waits for a batch. -/
  | idle
  /-- Is about to write a batch, after so many failures. -/
  | writing (batch : Batch) (failures : Nat)
  /-- Waits before the next attempt. -/
  | backingOff (batch : Batch) (failures : Nat) (wake : Nat)
  /-- Is through with a batch and about to lower the flag. -/
  | clearing
  | gone
deriving DecidableEq

structure Flusher where
  pending : Batch
  /-- Whether a flush is in flight. -/
  active : Bool
  /-- Whether batches can still be handed off. -/
  isOpen : Bool
  /-- A batch handed off that the worker has not taken. -/
  handedOff? : Option Batch
  worker : Worker
  /-- Whether nobody has waited for the worker to end. -/
  workerUnclaimed : Bool
deriving DecidableEq

namespace Flusher

def start : Flusher := ⟨.empty, false, true, none, .idle, true⟩

/-- How a hand-off ended. -/
inductive HandOff where
  | sent
  /-- The place of the batch handed off was taken. -/
  | full
  /-- The worker was gone, and the batch with it. -/
  | orphaned
  /-- The flusher was closed, and the batch was dropped. -/
  | closed
deriving DecidableEq, Repr

/-- Hands the pending batch to the worker. -/
def handOff (flusher : Flusher) : HandOff × Flusher :=
  if ¬ flusher.isOpen then
    (.closed, { flusher with pending := .empty })
  else if flusher.worker = .gone then
    (.orphaned, { flusher with pending := .empty, active := false })
  else
    match flusher.handedOff? with
    | some _ => (.full, { flusher with active := true })
    | none =>
      (.sent, { flusher with
        pending := .empty, active := true, handedOff? := some flusher.pending })

/-- Merges a finished event, and hands the batch off if it has reached the threshold and no flush
is in flight. -/
def collect (threshold : Nat) (flusher : Flusher) (event : FinishedEvent) : Flusher :=
  let flusher := { flusher with pending := flusher.pending.merge event }
  if threshold ≤ flusher.pending.count ∧ ¬ flusher.active then flusher.handOff.2 else flusher

/-- What came of an attempt to hand off whatever is pending. -/
inductive Flush where
  | nothing
  | busy
  | handedOff (result : HandOff)
deriving DecidableEq, Repr

/-- Hands off whatever is pending, unless a flush is in flight. -/
def tryHandOff (flusher : Flusher) : Flush × Flusher :=
  if flusher.pending.count = 0 then
    (.nothing, flusher)
  else if flusher.active then
    (.busy, flusher)
  else
    let (result, flusher) := flusher.handOff
    (.handedOff result, flusher)

/-- What the worker sees of its surroundings. -/
structure Signals where
  now : Nat
  /-- A shutdown has been requested. -/
  isStopping : Bool
  /-- Nobody is left who could hand off a batch or request a shutdown. -/
  isReleased : Bool
deriving DecidableEq, Repr

/-- One step of the worker, unless it has to wait. -/
def workerStep? {β : Type} [Backend β] (config : Config) (partition : PartitionId)
    (signals : Signals) (flusher : Flusher) (store : β) : Option (Flusher × β) :=
  match flusher.worker with
  | .idle =>
    match flusher.handedOff? with
    | some batch => some ({ flusher with handedOff? := none, worker := .writing batch 0 }, store)
    | none =>
      if ¬ flusher.isOpen ∨ signals.isReleased then
        some ({ flusher with worker := .gone }, store)
      else
        none
  | .writing batch failures =>
    match Checkpoint.putBatch store partition batch.rows with
    | (.ok (), store) => some ({ flusher with worker := .clearing }, store)
    | (.error _, store) =>
      let failures := failures + 1
      let wake := signals.now + config.retryDelay failures
      let worker := if signals.isStopping then .clearing else .backingOff batch failures wake
      some ({ flusher with worker }, store)
  | .backingOff batch failures wake =>
    if wake ≤ signals.now ∨ signals.isStopping ∨ signals.isReleased then
      some ({ flusher with worker := .writing batch failures }, store)
    else
      none
  | .clearing => some ({ flusher with active := false, worker := .idle }, store)
  | .gone => none

/-- When the worker will try again, if it is waiting for that. -/
def wake? (flusher : Flusher) : Option Nat :=
  match flusher.worker with
  | .backingOff _ _ wake => some wake
  | _ => none

end Flusher

end LogSequencing
