import LogSequencing.Log.Memory
import LogSequencing.Proofs.Flusher
import LogSequencing.Proofs.Storage.Lawful
import LogSequencing.Sequencer.Call

/-!
# The life of a partition

One sequencer after the other serves a partition on the same store and the same log. An `Action` is a
step of the client, of the recovery task, of the flusher's worker or of a shutdown, or something that
happens to all of them: time passes, reads and writes begin to fail or succeed again, the process
crashes. Actions come in any order; one that cannot happen changes nothing.

The client builds one event at a time (`Draft`). It finishes an event only after it has committed it,
with exactly the numbers that it was given. Once it has asked for a shutdown it does nothing more.
-/

set_option autoImplicit false
set_option relaxedAutoImplicit false

namespace LogSequencing

/-- An event that the client is building, and whether it is in the log already. -/
structure Draft where
  usage : Usage
  isCommitted : Bool
deriving DecidableEq, Repr

/-- The event takes what was handed out for it and nothing else. -/
def Event.Fits (event : Event) (usage : Usage) : Prop :=
  event.offset = usage.offset ∧ event.workspace = usage.workspace ∧
    event.workspaceOffset = usage.workspaceOffset ∧ event.usedIds.Perm usage.ids

instance (event : Event) (usage : Usage) : Decidable (event.Fits usage) :=
  inferInstanceAs (Decidable (_ ∧ _ ∧ _ ∧ _))

/-- How the worker got through with a batch. -/
inductive Fate where
  | landed
  | abandoned
deriving DecidableEq, Repr

/-- Whether the client works or has asked for a shutdown. -/
inductive Stage where
  | serving
  | stopping (phase : ShutdownPhase)
  | stopped
deriving DecidableEq, Repr

structure Life (β : Type) where
  store : Faulty β
  log : MemoryLog
  sequencer : Sequencer
  clock : Nat
  stage : Stage
  draft? : Option Draft
  /-- The batches that the worker of this sequencer is through with. -/
  settled : List (Batch × Fate)

namespace Life

inductive Action where
  | recover
  /-- Some caller of `start` or `awaitReady` takes a step, from wherever it stands. -/
  | call (call : Call) (preference : Preference)
  | takeId (sequence : IdSequence)
  | commit (event : Event)
  | finish
  /-- Gives up an event that is not in the log, or one that is. -/
  | cancel (isCommitted : Bool)
  /-- The next step of a shutdown, the first of which is the request. -/
  | shutdown
  | recovery (preference : Preference)
  | work
  | wait (milliseconds : Nat)
  /-- From now on so many reads and writes of checkpoints and reads of the log fail. -/
  | disturb (reads writes : FailureBudget) (logReads : Nat)
  /-- The process ends, and another one begins. -/
  | crash (config : Config)

namespace Action

/-- All but crashes and the cancelling of committed events. -/
def IsOrderly : Action → Prop
  | crash _ | cancel true => False
  | _ => True

def IsShutdown : Action → Prop
  | shutdown => True
  | _ => False

end Action

variable {β : Type} [Backend β]

/-- A new sequencer on what is stored. -/
def start (store : Faulty β) (log : MemoryLog) (partition : PartitionId) (config : Config) :
    Life β :=
  ⟨store, log, .create partition config, 0, .serving, none, []⟩

def partition (life : Life β) : PartitionId := life.sequencer.partition

/-- The committed events. -/
def events (life : Life β) : List Event := life.log.events life.partition

/-! ### The client -/

def recover (life : Life β) : Life β := { life with sequencer := life.sequencer.recover.2 }

/-- What the client has in hand when a call has come so far. -/
def draftAfter? (life : Life β) (workspace : WorkspaceId) : Progress → Option Draft
  | .ended (.started (some (offset, workspaceOffset))) =>
    some ⟨⟨offset, workspace, workspaceOffset, []⟩, false⟩
  | _ => life.draft?

def call (life : Life β) (preference : Preference) : Call → Life β
  | .shutdown _ => life
  | call =>
    match life.sequencer.callStep? life.clock preference call with
    | none => life
    | some (progress, sequencer) =>
      { life with sequencer, draft? := life.draftAfter? sequencer.workspace progress }

def takeId (life : Life β) (sequence : IdSequence) : Life β :=
  match life.draft? with
  | some ⟨usage, false⟩ =>
    match life.sequencer.nextId sequence with
    | (.ok id, sequencer) =>
      let usage := { usage with ids := usage.ids ++ [(sequence, id)] }
      { life with sequencer, draft? := some ⟨usage, false⟩ }
    | (.error _, sequencer) => { life with sequencer }
  | _ => life

def commit (life : Life β) (event : Event) : Life β :=
  match life.draft? with
  | some ⟨usage, false⟩ =>
    if event.Fits usage then
      match life.log.append life.partition event with
      | .ok log => { life with log, draft? := some ⟨usage, true⟩ }
      | .error _ => life
    else
      life
  | _ => life

/-- Lets the event go if the request was granted. -/
def letGo (life : Life β) : Except Violation Unit × Sequencer → Life β
  | (.ok (), sequencer) => { life with sequencer, draft? := none }
  | (.error _, sequencer) => { life with sequencer }

def finish (life : Life β) : Life β :=
  match life.draft? with
  | some ⟨_, true⟩ => life.letGo life.sequencer.finishEvent
  | _ => life

def cancel (life : Life β) (isCommitted : Bool) : Life β :=
  match life.draft? with
  | some draft =>
    if draft.isCommitted = isCommitted then life.letGo life.sequencer.cancelEvent else life
  | none => life

/-- What the client does as long as it works. -/
def whileServing (life : Life β) (action : Life β → Life β) : Life β :=
  if life.stage = .serving then action life else life

/-! ### Everybody else -/

/-- Takes the step of a shutdown that has come so far. -/
def shutdownFrom (life : Life β) (phase : ShutdownPhase) : Life β :=
  match life.sequencer.shutdownStep? phase with
  | some (.running (.shutdown phase), sequencer) =>
    { life with sequencer, stage := .stopping phase }
  | some (.ended .stopped, sequencer) => { life with sequencer, stage := .stopped }
  | some (_, sequencer) => { life with sequencer }
  | none => life

def shutdown (life : Life β) : Life β :=
  match life.stage with
  | .serving => life.shutdownFrom .requesting
  | .stopping phase => life.shutdownFrom phase
  | .stopped => life

def recovery (life : Life β) (preference : Preference) : Life β :=
  match life.sequencer.recoveryStep? life.clock preference life.store life.log with
  | none => life
  | some (sequencer, store, log) => { life with sequencer, store, log }

/-- The batch that the next step of the worker is through with, if any. -/
def settling (life : Life β) : List (Batch × Fate) :=
  match life.sequencer.flusher.worker with
  | .writing batch _ =>
    match (Checkpoint.putBatch life.store life.partition batch.rows).1 with
    | .ok () => [(batch, .landed)]
    | .error _ => if life.sequencer.isStopping then [(batch, .abandoned)] else []
  | _ => []

def work (life : Life β) : Life β :=
  match life.sequencer.workerStep? life.clock false life.store with
  | none => life
  | some (sequencer, store) =>
    { life with sequencer, store, settled := life.settled ++ life.settling }

def disturb (life : Life β) (reads writes : FailureBudget) (logReads : Nat) : Life β :=
  { life with
    store := { life.store with reads, writes }
    log := { life.log with failingReads := logReads } }

/-- Only the store and the log outlast a crash. -/
def crash (life : Life β) (config : Config) : Life β :=
  { start life.store life.log life.partition config with clock := life.clock }

def act (life : Life β) : Action → Life β
  | .recover => life.whileServing recover
  | .call call preference => life.whileServing (Life.call · preference call)
  | .takeId sequence => life.whileServing (takeId · sequence)
  | .commit event => life.whileServing (commit · event)
  | .finish => life.whileServing finish
  | .cancel isCommitted => life.whileServing (cancel · isCommitted)
  | .shutdown => life.shutdown
  | .recovery preference => life.recovery preference
  | .work => life.work
  | .wait milliseconds => { life with clock := life.clock + milliseconds }
  | .disturb reads writes logReads => life.disturb reads writes logReads
  | .crash config => life.crash config

def run (life : Life β) (actions : List Action) : Life β := actions.foldl act life

/-- What a recovery comes to that begins now and meets no failure. -/
def recovered (life : Life β) : Except EngineError Counters :=
  (Checkpoint.replay life.store.heal { life.log with failingReads := 0 } life.partition).1

end Life

end LogSequencing
