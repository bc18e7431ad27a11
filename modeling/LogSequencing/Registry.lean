import LogSequencing.Engine

/-!
# The registry

The sequencers of the partitions deployed on a node. A partition gets its sequencer, and the sequencer
begins to recover, when the partition is first deployed. Undeploying takes the sequencer out of the
registry and then shuts it down.
-/

set_option autoImplicit false
set_option relaxedAutoImplicit false

namespace LogSequencing

structure Registry where
  config : Config
  /-- The number of each partition's sequencer in the engine. -/
  deployed : Std.ExtTreeMap PartitionId Nat compare

namespace Registry

/-- A registry with nothing deployed, if the configuration is valid. -/
def create (config : Config) : Except ConfigError Registry :=
  config.validate.map fun _ ↦ ⟨config, ∅⟩

/-- The deployed partitions in ascending order. -/
def partitions (registry : Registry) : List PartitionId := registry.deployed.keys

def get? (registry : Registry) (partition : PartitionId) : Option Nat :=
  registry.deployed[partition]?

variable {β σ : Type} [Backend β] [LogSource σ]

/-- The sequencer of a partition, created and put into recovery if there is none. -/
def deploy (registry : Registry) (engine : Engine β σ) (partition : PartitionId) :
    Nat × Registry × Engine β σ :=
  match registry.get? partition with
  | some number => (number, registry, engine)
  | none =>
    let (number, engine) := engine.create partition registry.config
    let (_, engine) := engine.request number Sequencer.recover
    (number, { registry with deployed := registry.deployed.insert partition number }, engine)

/-- Takes a partition's sequencer out of the registry, if it is there. -/
def remove (registry : Registry) (partition : PartitionId) : Option Nat × Registry :=
  (registry.get? partition, { registry with deployed := registry.deployed.erase partition })

/-- Takes a partition's sequencer out and shuts it down. The outcome is missing where nothing was
deployed. -/
def undeploy (registry : Registry) (engine : Engine β σ) (partition : PartitionId) :
    Option Outcome × Registry × Engine β σ :=
  match registry.remove partition with
  | (none, registry) => (none, registry, engine)
  | (some number, registry) =>
    let (outcome?, engine) := engine.perform number (.shutdown .requesting)
    (outcome?, registry, engine)

/-- Shuts sequencers down one after the other, until a shutdown violates the contract. -/
def shutdownAll (engine : Engine β σ) : List Nat → Option Violation × Engine β σ
  | [] => (none, engine)
  | number :: rest =>
    match engine.perform number (.shutdown .requesting) with
    | (some (.violated violation), engine) => (some violation, engine)
    | (_, engine) => shutdownAll engine rest

/-- Takes all sequencers out and shuts them down. -/
def shutdown (registry : Registry) (engine : Engine β σ) :
    Option Violation × Registry × Engine β σ :=
  let (violation?, engine) := shutdownAll engine registry.deployed.values
  (violation?, { registry with deployed := ∅ }, engine)

end Registry

end LogSequencing
