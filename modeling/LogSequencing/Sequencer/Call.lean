import LogSequencing.Sequencer.Recovery

/-!
# Calls that may have to wait

Starting an event waits for a recovery to end, and so does `awaitReady`. A shutdown ends the
recovery task, writes what is pending and waits for the worker to end. Each call is a sequence of
steps with waits between them, so that calls, the recovery task and the worker may interleave in any
way.
-/

set_option autoImplicit false
set_option relaxedAutoImplicit false

namespace LogSequencing

/-- Where a shutdown stands. -/
inductive ShutdownPhase where
  | requesting
  /-- Is about to claim the recovery task. -/
  | claimingRecovery
  /-- Waits for the recovery task of that number to end. -/
  | awaitingRecovery (number : Nat)
  /-- Waits until no flush is in flight, to hand off the last batch. -/
  | awaitingFlush
  | handingOff
  /-- Waits until the last batch is through. -/
  | draining
  | closing
  | awaitingWorker
  | finishing
deriving DecidableEq, Repr

/-- Where a call stands. A patience and a deadline count milliseconds. -/
inductive Call where
  | start (workspace : WorkspaceId) (patience : Nat)
  /-- Waits to start an event. -/
  | awaitingStart (workspace : WorkspaceId) (deadline : Nat)
  /-- Is about to reserve the offsets of an event. -/
  | reserving (workspace : WorkspaceId)
  | awaitReady (patience : Nat)
  | awaitingReady (deadline : Nat)
  | shutdown (phase : ShutdownPhase)
deriving DecidableEq, Repr

/-- How a call ended. -/
inductive Outcome where
  /-- The offsets of the event, unless none could be started. -/
  | started (offsets? : Option (Offset × Offset))
  /-- Whether the sequencer became ready in time. -/
  | ready (inTime : Bool)
  | stopped
  | violated (violation : Violation)
deriving DecidableEq, Repr

/-- What a step makes of a call. -/
inductive Progress where
  | running (call : Call)
  | ended (outcome : Outcome)
deriving DecidableEq, Repr

namespace Sequencer

/-- Looks whether an event may start at once. -/
def beginStart (s : Sequencer) (now : Nat) (workspace : WorkspaceId) (patience : Nat) : Progress :=
  if s.isStopping then .ended (.started none)
  else if s.status = .recovering then .running (.awaitingStart workspace (now + patience))
  else .running (.reserving workspace)

/-- Waits for the end of a recovery, of the patience, or of the sequencer. -/
def continueStart? (s : Sequencer) (now : Nat) (workspace : WorkspaceId) (deadline : Nat)
    (preference : Preference) : Option Progress :=
  if s.isStopping ∧ (s.status ≠ .ready ∨ preference = .stop) then some (.ended (.started none))
  else if s.status = .ready then some (.running (.reserving workspace))
  else if deadline ≤ now then some (.ended (.started none))
  else none

/-- Reserves the offsets of an event, if the status still allows it. -/
def reserve (s : Sequencer) (workspace : WorkspaceId) : Progress × Sequencer :=
  match s.status with
  | .ready =>
    match s.takeOffsets workspace with
    | (.ok offsets, s) => (.ended (.started (some offsets)), s)
    | (.error violation, s) => (.ended (.violated violation), s)
  | .recovering | .finished => (.ended (.started none), s)
  | status => (.ended (.violated (.startInStatus s.partition status)), s)

def continueReady? (s : Sequencer) (now deadline : Nat) : Option Progress :=
  if s.status = .ready then some (.ended (.ready true))
  else if deadline ≤ now then some (.ended (.ready false))
  else none

/-- One step of a shutdown, unless it has to wait. -/
def shutdownStep? (s : Sequencer) : ShutdownPhase → Option (Progress × Sequencer)
  | .requesting =>
    if s.status = .eventing then
      some (.ended (.violated (.shutdownDuringEvent s.partition)), s)
    else
      some (.running (.shutdown .claimingRecovery), { s with isStopping := true })
  | .claimingRecovery =>
    if s.recoveryUnclaimed then
      some (.running (.shutdown (.awaitingRecovery s.recoveries)),
        { s with recoveryUnclaimed := false })
    else
      some (.running (.shutdown .awaitingFlush), s)
  | .awaitingRecovery number =>
    if s.recovery.isAbsent ∨ s.recoveries ≠ number then
      some (.running (.shutdown .awaitingFlush), s)
    else
      none
  | .awaitingFlush =>
    if s.flusher.active then none else some (.running (.shutdown .handingOff), s)
  | .handingOff =>
    let (result, flusher) := s.flusher.tryHandOff
    let phase := if result = .busy then .awaitingFlush else .draining
    some (.running (.shutdown phase), { s with flusher })
  | .draining =>
    if s.flusher.active then none else some (.running (.shutdown .closing), s)
  | .closing =>
    let phase := if s.flusher.workerUnclaimed then .awaitingWorker else .finishing
    some (.running (.shutdown phase),
      { s with flusher := { s.flusher with isOpen := false, workerUnclaimed := false } })
  | .awaitingWorker =>
    if s.flusher.worker = .gone then some (.running (.shutdown .finishing), s) else none
  | .finishing => some (.ended .stopped, { s with status := .finished })

/-- One step of a call, unless it has to wait. -/
def callStep? (s : Sequencer) (now : Nat) (preference : Preference) :
    Call → Option (Progress × Sequencer)
  | .start workspace patience => some (s.beginStart now workspace patience, s)
  | .awaitingStart workspace deadline =>
    (s.continueStart? now workspace deadline preference).map (·, s)
  | .reserving workspace => some (s.reserve workspace)
  | .awaitReady patience =>
    if s.status = .ready then
      some (.ended (.ready true), s)
    else
      some (.running (.awaitingReady (now + patience)), s)
  | .awaitingReady deadline => (s.continueReady? now deadline).map (·, s)
  | .shutdown phase => s.shutdownStep? phase

end Sequencer

namespace Call

/-- When a call gives up waiting. -/
def deadline? : Call → Option Nat
  | awaitingStart _ deadline | awaitingReady deadline => some deadline
  | _ => none

/-- How long a call is ready to wait. -/
def patience : Call → Nat
  | start _ patience | awaitReady patience => patience
  | _ => 0

end Call

end LogSequencing
