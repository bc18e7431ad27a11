import LogSequencing.Proofs.Sequencer.Finality
import LogSequencing.Registry

/-!
# A registry in use

Any number of callers share a registry. They get and deploy sequencers, undeploy them and shut all of
them down, while sequencers are used, recover and write checkpoints. Calls go on in steps that come in
any order: a deploy looks for a sequencer before it takes the registry for itself, and a sequencer that
is to be undeployed is removed before its shutdown begins. Where all are shut down, it is left open
which comes next.

A partition is deployed again too early if another sequencer of it is not yet finished
(`Session.Overtakes`).
-/

set_option autoImplicit false
set_option relaxedAutoImplicit false

namespace LogSequencing.Registry

/-- Where a call on a registry stands. -/
inductive Call where
  | getting (partition : PartitionId)
  /-- Is about to look for the sequencer of a partition. -/
  | deploying (partition : PartitionId)
  /-- Has found none, and is about to create it if there still is none. -/
  | creating (partition : PartitionId)
  | undeploying (partition : PartitionId)
  | draining
  /-- Is about to shut down the next of these sequencers. -/
  | stopping (numbers : List Nat)
  /-- Waits for the shutdown of a sequencer, and is to shut down others. -/
  | awaiting (number call : Nat) (rest : List Nat)
  /-- Has ended, with the sequencer that was asked for. -/
  | ended (number? : Option Nat)
deriving DecidableEq

namespace Call

/-- The sequencers that a call is going to shut down. -/
def due : Call → List Nat
  | stopping numbers | awaiting _ _ numbers => numbers
  | _ => []

end Call

/-- A call on a registry, as its caller makes it. -/
inductive NewCall where
  | get (partition : PartitionId)
  | deploy (partition : PartitionId)
  | undeploy (partition : PartitionId)
  | shutdown

def NewCall.call : NewCall → Call
  | get partition => .getting partition
  | deploy partition => .deploying partition
  | undeploy partition => .undeploying partition
  | shutdown => .draining

structure Session (β σ : Type) where
  registry : Registry
  engine : Engine β σ
  /-- The calls on each sequencer. -/
  uses : List (List Progress)
  /-- The calls on the registry. -/
  calls : List Call

namespace Session

inductive Action (β σ : Type) where
  | invoke (newCall : NewCall)
  /-- A call goes on, with a choice of the sequencer that it shuts down next. -/
  | advance (call choice : Nat)
  /-- A caller or a task of a sequencer does something. -/
  | use (number : Nat) (action : Sequencer.Session.Action β σ)

variable {β σ : Type}

def start (config : Config) (store : β) (log : σ) : Session β σ :=
  ⟨⟨config, ∅⟩, .start store log, [], []⟩

/-- A sequencer in use, with the store and the log that all share. -/
def view? (session : Session β σ) (number : Nat) : Option (Sequencer.Session β σ) :=
  match session.engine.sequencers[number]?, session.uses[number]? with
  | some sequencer, some calls =>
    let { clock, store, log, .. } := session.engine
    some ⟨sequencer, store, log, clock, calls, store, log⟩
  | _, _ => none

def setCall (session : Session β σ) (index : Nat) (call : Call) : Session β σ :=
  { session with calls := session.calls.set index call }

variable [Backend β] [LogSource σ]

def use (session : Session β σ) (number : Nat) (action : Sequencer.Session.Action β σ) :
    Session β σ :=
  match session.view? number with
  | none => session
  | some view =>
    let after := (view.act action).2
    let engine := session.engine.setSequencer number after.sequencer
    { session with
      engine := { engine with store := after.store, log := after.log, clock := after.clock }
      uses := session.uses.set number after.calls }

/-- Takes the registry to deploy a partition. -/
def create (session : Session β σ) (partition : PartitionId) : Nat × Session β σ :=
  let (number, registry, engine) := session.registry.deploy session.engine partition
  let uses :=
    if session.registry.get? partition = none then session.uses ++ [[]] else session.uses
  (number, { session with registry, engine, uses })

/-- How the shutdown of a sequencer has ended, if it has. -/
def outcome? (session : Session β σ) (number call : Nat) : Option Outcome :=
  match (session.uses[number]?).bind (·[call]?) with
  | some (.ended outcome) => some outcome
  | _ => none

def advance (session : Session β σ) (index choice : Nat) : Session β σ :=
  match session.calls[index]? with
  | none | some (.ended _) => session
  | some (.getting partition) =>
    session.setCall index (.ended (session.registry.get? partition))
  | some (.deploying partition) =>
    match session.registry.get? partition with
    | some number => session.setCall index (.ended (some number))
    | none => session.setCall index (.creating partition)
  | some (.creating partition) =>
    let (number, session) := session.create partition
    session.setCall index (.ended (some number))
  | some (.undeploying partition) =>
    let (number?, registry) := session.registry.remove partition
    { session with registry }.setCall index (.stopping number?.toList)
  | some .draining =>
    let registry := { session.registry with deployed := ∅ }
    { session with registry }.setCall index (.stopping session.registry.deployed.values)
  | some (.stopping numbers) =>
    match numbers.rotate choice with
    | [] => session.setCall index (.ended none)
    | number :: rest =>
      let call := (session.uses[number]?.map List.length).getD 0
      (session.setCall index (.awaiting number call rest)).use number (.invoke .shutdown)
  | some (.awaiting number call rest) =>
    match session.outcome? number call with
    | none => session
    | some (.violated _) => session.setCall index (.ended none)
    | some _ => session.setCall index (.stopping rest)

def act (session : Session β σ) : Action β σ → Session β σ
  | .invoke newCall => { session with calls := session.calls ++ [newCall.call] }
  | .advance index choice => session.advance index choice
  | .use number action => session.use number action

def run (session : Session β σ) (actions : List (Action β σ)) : Session β σ :=
  actions.foldl act session

/-! ### Sequencers that are not finished -/

/-- A sequencer of the partition that is not finished. -/
def Live (session : Session β σ) (number : Nat) (partition : PartitionId) : Prop :=
  ∃ s, session.engine.sequencers[number]? = some s ∧ s.partition = partition ∧ s.status ≠ .finished

instance (session : Session β σ) (number : Nat) (partition : PartitionId) :
    Decidable (session.Live number partition) :=
  decidable_of_iff (∃ s ∈ session.engine.sequencers[number]?,
    s.partition = partition ∧ s.status ≠ .finished) Iff.rfl

/-- No partition has two sequencers that are not finished. -/
def HasSingles (session : Session β σ) : Prop :=
  ∀ partition number other, session.Live number partition → session.Live other partition →
    number = other

/-- A deploy is about to create a sequencer beside another one that is not finished. -/
def Overtakes (session : Session β σ) : Action β σ → Prop
  | .advance index _ => ∃ partition number, session.calls[index]? = some (.creating partition) ∧
      session.registry.get? partition = none ∧ session.Live number partition
  | _ => False

end Session

end LogSequencing.Registry
