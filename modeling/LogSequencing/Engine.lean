import LogSequencing.Sequencer.Call

/-!
# The engine

Sequencers that share a store and a log, on one thread and a clock that is moved by hand.

The recovery task and the flusher's worker of each sequencer, and jobs set for a later time, work in
the background. Those that can go on stand in a queue, in the order in which they became able to
(`Engine.enqueue`). The first of the queue has its turn until it has to wait again (`Engine.turn`).
Time stands still while the queue has anyone in it (`Engine.settle`); when everything waits, the clock
jumps to the next moment at which a wait ends. A call is carried through in this way
(`Engine.perform`), and so is the passing of time (`Engine.advance`).

Sequencers, and jobs likewise, are known by the order in which they were created, beginning at zero.
-/

set_option autoImplicit false
set_option relaxedAutoImplicit false

namespace LogSequencing

/-- What is done in the background but belongs to no sequencer. -/
inductive Job (β : Type) where
  /-- Is to change the store at a set time. -/
  | change (time : Nat) (action : β → β)
  /-- Is to shut a sequencer down at a set time. -/
  | shutdown (time : Nat) (sequencer : Nat)
  /-- Is in the middle of a call on a sequencer. -/
  | calling (sequencer : Nat) (call : Call)
  | finished

namespace Job

variable {β : Type}

/-- When a job stops waiting for the clock. -/
def wake? : Job β → Option Nat
  | change time _ | shutdown time _ => some time
  | calling _ call => call.deadline?
  | finished => none

/-- The sequencer that a job keeps alive. -/
def sequencer? : Job β → Option Nat
  | shutdown _ sequencer | calling sequencer _ => some sequencer
  | change .. | finished => none

end Job

/-- Who works in the background. -/
inductive Task where
  | recovery (sequencer : Nat)
  | worker (sequencer : Nat)
  | job (index : Nat)
deriving DecidableEq, Repr

structure Engine (β σ : Type) where
  /-- Milliseconds since the engine was started. -/
  clock : Nat
  store : β
  log : σ
  sequencers : List Sequencer
  jobs : List (Job β)
  /-- All tasks, in the order of their last turns. -/
  tasks : List Task
  /-- The tasks that can go on; the first is the next to have its turn. -/
  queue : List Task

namespace Engine

variable {β σ : Type} [Backend β] [LogSource σ]

def start (store : β) (log : σ) : Engine β σ := ⟨0, store, log, [], [], [], []⟩

def setSequencer (engine : Engine β σ) (number : Nat) (s : Sequencer) : Engine β σ :=
  { engine with sequencers := engine.sequencers.set number s }

def setJob (engine : Engine β σ) (index : Nat) (job : Job β) : Engine β σ :=
  { engine with jobs := engine.jobs.set index job }

/-! ### Steps in the background -/

def recoveryStep? (engine : Engine β σ) (number : Nat) : Option (Engine β σ) := do
  let s ← engine.sequencers[number]?
  let (s, store, log) ← s.recoveryStep? engine.clock .stop engine.store engine.log
  return { engine.setSequencer number s with store, log }

/-- Whether a job keeps a sequencer alive. -/
def isHeld (engine : Engine β σ) (number : Nat) : Bool :=
  engine.jobs.any (·.sequencer? = some number)

def workerStep? (engine : Engine β σ) (number : Nat) : Option (Engine β σ) := do
  let s ← engine.sequencers[number]?
  let (s, store) ← s.workerStep? engine.clock (engine.isHeld number) engine.store
  return { engine.setSequencer number s with store }

def callStep? (engine : Engine β σ) (number : Nat) (call : Call) :
    Option (Progress × Engine β σ) := do
  let s ← engine.sequencers[number]?
  let (progress, s) ← s.callStep? engine.clock .stop call
  return (progress, engine.setSequencer number s)

def jobStep? (engine : Engine β σ) (index : Nat) : Option (Engine β σ) := do
  match ← engine.jobs[index]? with
  | .change time action =>
    guard (time ≤ engine.clock)
    return { engine.setJob index .finished with store := action engine.store }
  | .shutdown time number =>
    guard (time ≤ engine.clock)
    return engine.setJob index (.calling number (.shutdown .requesting))
  | .calling number call =>
    let (progress, engine) ← engine.callStep? number call
    return engine.setJob index
      (match progress with
        | .running call => .calling number call
        | .ended _ => .finished)
  | .finished => none

/-- One step of a task, unless it has to wait. -/
def taskStep? (engine : Engine β σ) : Task → Option (Engine β σ)
  | .recovery number => engine.recoveryStep? number
  | .worker number => engine.workerStep? number
  | .job index => engine.jobStep? index

/-! ### The queue -/

/-- Lets the tasks line up that have become able to go on. Of several, the one that has waited longest
is first. -/
def enqueue (engine : Engine β σ) : Engine β σ :=
  { engine with
    queue := engine.queue ++ engine.tasks.filter fun task ↦
      !engine.queue.contains task && (engine.taskStep? task).isSome }

/-- No more steps than this are done at one time. Where a retry waits for at least a millisecond, far
fewer can be done. -/
def stepLimit : Nat := 100000

def turnWithin (task : Task) : (fuel : Nat) → Engine β σ → Engine β σ
  | 0, engine => engine
  | fuel + 1, engine =>
    match engine.taskStep? task with
    | some engine => turnWithin task fuel engine
    | none => engine

/-- Lets a task work until it has to wait. -/
def turn (engine : Engine β σ) (task : Task) : Engine β σ :=
  { engine with tasks := engine.tasks.erase task ++ [task] }.turnWithin task stepLimit

def settleWithin : (fuel : Nat) → Engine β σ → Engine β σ
  | 0, engine => engine
  | fuel + 1, engine =>
    match engine.queue with
    | [] => engine
    | task :: queue => settleWithin fuel ({ engine with queue }.turn task).enqueue

/-- Does in the background what can be done at this time. -/
def settle (engine : Engine β σ) : Engine β σ := engine.settleWithin stepLimit

/-! ### Requests -/

/-- Creates a sequencer. -/
def create (engine : Engine β σ) (partition : PartitionId) (config : Config) : Nat × Engine β σ :=
  let number := engine.sequencers.length
  (number, { engine with
    sequencers := engine.sequencers ++ [.create partition config]
    tasks := engine.tasks ++ [.recovery number, .worker number] })

/-- A request to a sequencer that takes effect at once. -/
def request {α : Type} (engine : Engine β σ) (number : Nat)
    (action : Sequencer → Except Violation α × Sequencer) :
    Option (Except Violation α) × Engine β σ :=
  match engine.sequencers[number]? with
  | none => (none, engine)
  | some s =>
    let (result, s) := action s
    (some result, (engine.setSequencer number s).enqueue)

/-- Forgets the last handle on a sequencer. -/
def drop (engine : Engine β σ) (number : Nat) : Engine β σ :=
  { engine with sequencers := engine.sequencers.modify number Sequencer.drop }.enqueue

/-- Sets a job. It begins to wait when it has its first turn. -/
def addJob (engine : Engine β σ) (job : Job β) : Engine β σ :=
  let task := .job engine.jobs.length
  { engine with
    jobs := engine.jobs ++ [job]
    tasks := engine.tasks ++ [task]
    queue := engine.queue ++ [task] }

/-- Has the store changed after a delay. -/
def changeAfter (engine : Engine β σ) (delay : Nat) (action : β → β) : Engine β σ :=
  engine.addJob (.change (engine.clock + delay) action)

/-- Has a sequencer shut down after a delay. -/
def shutdownAfter (engine : Engine β σ) (delay number : Nat) : Engine β σ :=
  engine.addJob (.shutdown (engine.clock + delay) number)

/-! ### Time -/

/-- The moments at which a wait in the background ends. -/
def wakes (engine : Engine β σ) : List Nat :=
  engine.sequencers.flatMap (fun s ↦ s.recoveryWake?.toList ++ s.flusher.wake?.toList) ++
    engine.jobs.filterMap Job.wake?

/-- Moves the clock forward to a moment. -/
def moveClock (engine : Engine β σ) (time : Nat) : Engine β σ :=
  { engine with clock := max engine.clock time }.enqueue

def advanceWithin (target : Nat) : (fuel : Nat) → Engine β σ → Engine β σ
  | 0, engine => engine
  | fuel + 1, engine =>
    let engine := engine.settle
    match engine.wakes.min? with
    | none => engine.moveClock target
    | some wake =>
      if wake ≤ target then
        advanceWithin target fuel (engine.moveClock wake)
      else
        engine.moveClock target

/-- Lets so many milliseconds pass. -/
def advance (engine : Engine β σ) (milliseconds : Nat) : Engine β σ :=
  (engine.advanceWithin (engine.clock + milliseconds) (milliseconds + 1)).settle

/-! ### Calls -/

/-- The next moment at which the call or something in the background stops waiting. -/
def nextWake? (engine : Engine β σ) (call : Call) : Option Nat :=
  (call.deadline?.toList ++ engine.wakes).min?

def performWithin (number : Nat) : (fuel : Nat) → Call → Engine β σ → Option Outcome × Engine β σ
  | 0, _, engine => (none, engine)
  | fuel + 1, call, engine =>
    match engine.callStep? number call with
    | some (.running call, engine) => performWithin number fuel call engine.enqueue
    | some (.ended outcome, engine) => (some outcome, engine.enqueue)
    | none =>
      if engine.queue.isEmpty then
        match engine.nextWake? call with
        | none => (none, engine)
        | some wake => performWithin number fuel call (engine.moveClock wake)
      else
        performWithin number fuel call engine.settle

/-- Carries a call through. The background works only while the call waits, and the call goes on only
when everything in the background waits. There is no outcome if the call waits for something that
never happens. -/
def perform (engine : Engine β σ) (number : Nat) (call : Call) : Option Outcome × Engine β σ :=
  engine.performWithin number (stepLimit * (call.patience + 1)) call

end Engine

end LogSequencing
