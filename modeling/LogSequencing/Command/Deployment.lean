import LogSequencing.Command
import LogSequencing.Command.Failure
import LogSequencing.Engine.Client
import LogSequencing.Log.Writer
import LogSequencing.Registry

/-!
# Commands on a sequencer

The counters of a partition are recovered by deploying its sequencer (`Deployment.start`). A load is
committed event by event: the sequencer hands out the numbers of an event, the event is written to the
log, and only then is it finished; an event that cannot be written is cancelled, and is the last one.
The flusher has its turn whenever a call waits, at the latest when the sequencer is shut down.
-/

set_option autoImplicit false
set_option relaxedAutoImplicit false

namespace LogSequencing

/-- How a sequencer is run. -/
structure Settings where
  config : Config
  /-- How many seconds to wait until a sequencer is ready. -/
  recoveryTimeout : UInt64
deriving DecidableEq, Repr

/-- How many milliseconds to wait until a sequencer is ready. -/
def Settings.patience (settings : Settings) : Nat := settings.recoveryTimeout.toNat * 1000

/-- A deployed sequencer, with its number in the engine. -/
structure Deployment (β : Type) where
  partition : PartitionId
  settings : Settings
  registry : Registry
  number : Nat
  engine : Engine β FileLog

namespace Deployment

variable {β : Type} [Backend β]

/-- Deploys the sequencer of a partition, and tells whether it became ready in time. -/
def start (settings : Settings) (store : β) (log : FileLog) (partition : PartitionId) :
    Except ConfigError (Bool × Deployment β) := do
  let registry ← Registry.create settings.config
  let (number, registry, engine) := registry.deploy (Engine.start store log) partition
  let (outcome?, engine) := engine.perform number (.awaitReady settings.patience)
  return (outcome? = some (.ready true), ⟨partition, settings, registry, number, engine⟩)

def counters (deployment : Deployment β) : Counters :=
  (deployment.engine.sequencers[deployment.number]?.map Sequencer.counters).getD .empty

/-- Shuts the sequencer down, after which the store and the log are at rest. -/
def stop (deployment : Deployment β) : Except Breakdown Unit × β × FileLog :=
  let (violation?, _, engine) := deployment.registry.shutdown deployment.engine
  let result :=
    match violation? with
    | none => .ok ()
    | some violation => .error (.violation violation)
  (result, engine.store, engine.log)

/-- A request to the sequencer. -/
def request (deployment : Deployment β)
    (action : Sequencer → Except Violation Unit × Sequencer) :
    Except Breakdown Unit × Deployment β :=
  let (result?, engine) := deployment.engine.request deployment.number action
  let result :=
    match result? with
    | some (.error violation) => .error (.violation violation)
    | _ => .ok ()
  (result, { deployment with engine })

/-- Writes an event to the log and finishes it, or cancels it if it cannot be written. -/
def write (deployment : Deployment β) (writer : Writer) (event : Event) :
    Except Breakdown Unit × Writer × Deployment β :=
  match deployment.engine.log.append deployment.partition writer event none with
  | (.ok (), writer, log) =>
    let (result, deployment) :=
      { deployment with engine := { deployment.engine with log } }.request Sequencer.finishEvent
    (result, writer, deployment)
  | (.error error, writer, log) =>
    let (result, deployment) :=
      { deployment with engine := { deployment.engine with log } }.request Sequencer.cancelEvent
    (result.bind fun _ ↦ .error (.failure (.notCommitted event.offset error)), writer, deployment)

/-- Allocates an event and commits it. -/
def commit (deployment : Deployment β) (load : Load) (writer : Writer) :
    Except Breakdown Unit × Writer × Deployment β :=
  match deployment.engine.allocate deployment.number load.workspace deployment.settings.patience
      load.ordinary load.compacting with
  | (.error violation, engine) =>
    (.error (.violation violation), writer, { deployment with engine })
  | (.ok none, engine) =>
    (.error (.failure (.notReady deployment.partition)), writer, { deployment with engine })
  | (.ok (some allocation), engine) =>
    { deployment with engine }.write writer (allocation.toEvent load.workspace engine.log.now)

/-- Commits so many events, until one of them fails. -/
def commitAll (load : Load) :
    (count : Nat) → Writer → Deployment β → Except Breakdown Unit × Deployment β
  | 0, _, deployment => (.ok (), deployment)
  | count + 1, writer, deployment =>
    match deployment.commit load writer with
    | (.ok (), writer, deployment) => commitAll load count writer deployment
    | (.error breakdown, _, deployment) => (.error breakdown, deployment)

/-- Ends a command that came so far with the counters as its result. A violation of the contract ends
everything at once; a failure is told after the sequencer has been shut down. -/
def conclude (deployment : Deployment β) (result : Except Breakdown Unit) :
    Except Breakdown Counters × β × FileLog :=
  match result with
  | .error (.violation violation) =>
    (.error (.violation violation), deployment.engine.store, deployment.engine.log)
  | result =>
    let (stopped, store, log) := deployment.stop
    ((stopped.bind fun _ ↦ result).map fun _ ↦ deployment.counters, store, log)

/-- Opens the log and commits a load. Where the log cannot be opened, the sequencer is left as it
is. -/
def append (deployment : Deployment β) (load : Load) :
    Except Breakdown Counters × β × FileLog :=
  let (writer, log) :=
    deployment.engine.log.openWriter deployment.partition Writer.defaultMaxSegmentSize
  let deployment := { deployment with engine := { deployment.engine with log } }
  match writer with
  | .error error => (.error (.failure (.log error)), deployment.engine.store, log)
  | .ok writer =>
    let (result, deployment) := deployment.commitAll load load.events writer
    deployment.conclude result

end Deployment

end LogSequencing
