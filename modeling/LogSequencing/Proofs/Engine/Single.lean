import LogSequencing.Proofs.Engine

/-!
# An engine with a single sequencer

In the engine of one sequencer (`Engine.single`) the recovery task and the worker are the only tasks.
Here is what a turn of either comes to: the recovery task installs what it reads (`turn_installs`) or
ends when the sequencer is stopping (`turn_gives_up`), the worker lands the batch that was handed off
(`turn_lands`) or ends when the flusher is closed (`turn_ends`).
-/

set_option autoImplicit false
set_option relaxedAutoImplicit false

namespace LogSequencing

namespace Sequencer

/-- The worker waits for a batch, and nobody has let go of the sequencer. -/
structure IsIdle (s : Sequencer) : Prop where
  worker : s.flusher.worker = .idle
  isOpen : s.flusher.isOpen = true
  isKept : s.isDropped = false

/-- The sequencer after the batch handed off has landed. -/
def landed (s : Sequencer) : Sequencer :=
  { s with flusher := { s.flusher with handedOff? := none, active := false } }

theorem IsIdle.landed {s : Sequencer} (h : s.IsIdle) : s.landed.IsIdle := ⟨h.worker, h.isOpen, h.isKept⟩

variable {β : Type} [Backend β] {s : Sequencer} {store : β} {clock : Nat}

theorem workerStep?_eq_none (h : s.IsIdle) (hnothing : s.flusher.handedOff? = none) :
    s.workerStep? clock false store = none := by
  simp [workerStep?, Flusher.workerStep?, h.worker, h.isOpen, hnothing, isReleased, h.isKept]

theorem workerStep?_takes (h : s.IsIdle) {batch : Batch} (hbatch : s.flusher.handedOff? = some batch) :
    s.workerStep? clock false store =
      some ({ s with flusher := { s.flusher with handedOff? := none, worker := .writing batch 0 } },
        store) := by
  simp [workerStep?, Flusher.workerStep?, h.worker, hbatch]

theorem workerStep?_writes {batch : Batch} {failures : Nat} {isHeld : Bool}
    (hworker : s.flusher.worker = .writing batch failures) {after : β}
    (hput : Checkpoint.putBatch store s.partition batch.rows = (.ok (), after)) :
    s.workerStep? clock isHeld store =
      some ({ s with flusher := { s.flusher with worker := .clearing } }, after) := by
  simp [workerStep?, Flusher.workerStep?, hworker, hput]

end Sequencer

theorem Checkpoint.replay_eq_ok {β σ : Type} [Backend β] [LogSource σ] {store after : β}
    {log afterLog : σ} {partition : PartitionId} {counters : Counters}
    (h : replay store log partition = (.ok counters, after, afterLog)) :
    ∃ checkpoint reading, readPartition store partition = (.ok checkpoint, after) ∧
      LogSource.readFrom log partition checkpoint.offset = (reading, afterLog) ∧
      observeReading checkpoint reading = .ok counters := by
  unfold replay at h
  split at h
  · exact absurd (congrArg Prod.fst h) (by simp)
  · rename_i checkpoint read hread
    obtain ⟨hobserve, hrest⟩ := Prod.mk.inj h
    obtain ⟨rfl, hlog⟩ := Prod.mk.inj hrest
    exact ⟨checkpoint, _, hread, Prod.ext rfl hlog, hobserve⟩

namespace Engine

variable {β σ : Type}

/-- The engine of one sequencer, with no jobs. -/
def single (clock : Nat) (store : β) (log : σ) (s : Sequencer) (tasks queue : List Task) :
    Engine β σ := ⟨clock, store, log, [s], [], tasks, queue⟩

/-- Both tasks of the sequencer, in either order. -/
def Lined (tasks : List Task) : Prop :=
  tasks = [.recovery 0, .worker 0] ∨ tasks = [.worker 0, .recovery 0]

theorem Lined.turn {tasks : List Task} (h : Lined tasks) {task : Task}
    (htask : task = .recovery 0 ∨ task = .worker 0) : Lined (tasks.erase task ++ [task]) := by
  unfold Lined
  rcases h with rfl | rfl <;> rcases htask with rfl | rfl <;> decide

theorem Lined.filter_worker {tasks : List Task} (h : Lined tasks) {p : Task → Bool}
    (hworker : p (.worker 0) = true) (hrecovery : p (.recovery 0) = false) :
    tasks.filter p = [.worker 0] := by
  rcases h with rfl | rfl <;> simp [hworker, hrecovery]

theorem Lined.filter_recovery {tasks : List Task} (h : Lined tasks) {p : Task → Bool}
    (hrecovery : p (.recovery 0) = true) (hworker : p (.worker 0) = false) :
    tasks.filter p = [.recovery 0] := by
  rcases h with rfl | rfl <;> simp [hworker, hrecovery]

theorem Lined.mem_iff {tasks : List Task} (h : Lined tasks) (task : Task) :
    task ∈ tasks ↔ task = .recovery 0 ∨ task = .worker 0 := by
  rcases h with rfl | rfl
  · simp
  · simp [or_comm]

variable {clock : Nat} {store : β} {log : σ} {s : Sequencer} {tasks queue : List Task}

theorem callStep?_single (call : Call) :
    (single clock store log s tasks queue).callStep? 0 call =
      (s.callStep? clock .stop call).map fun (progress, s) ↦
        (progress, single clock store log s tasks queue) := by
  cases h : s.callStep? clock .stop call <;>
    simp [Engine.callStep?, single, setSequencer, h]

variable [Backend β] [LogSource σ]

theorem taskStep?_recovery :
    (single clock store log s tasks queue).taskStep? (.recovery 0) =
      (s.recoveryStep? clock .stop store log).map fun (s, store, log) ↦
        single clock store log s tasks queue := by
  cases h : s.recoveryStep? clock .stop store log <;>
    simp [taskStep?, Engine.recoveryStep?, single, setSequencer, h]

theorem taskStep?_worker :
    (single clock store log s tasks queue).taskStep? (.worker 0) =
      (s.workerStep? clock false store).map fun (s, store) ↦
        single clock store log s tasks queue := by
  cases h : s.workerStep? clock false store <;>
    simp [taskStep?, Engine.workerStep?, single, setSequencer, isHeld, h]

theorem request_single {α : Type} (action : Sequencer → Except Violation α × Sequencer) :
    (single clock store log s tasks queue).request 0 action =
      (some (action s).1, (single clock store log (action s).2 tasks queue).enqueue) := rfl

/-! ### Lining up -/

/-- Nobody lines up if all that can go on stand in the queue already. -/
theorem enqueue_eq_self {engine : Engine β σ}
    (h : ∀ task ∈ engine.tasks, task ∈ engine.queue ∨ engine.taskStep? task = none) :
    engine.enqueue = engine := by
  have hnobody : (engine.tasks.filter fun task ↦
      !engine.queue.contains task && (engine.taskStep? task).isSome) = [] := by
    refine List.filter_eq_nil_iff.mpr fun task htask hable ↦ ?_
    rcases h task htask with hqueue | hwaits
    · simp [hqueue] at hable
    · simp [hwaits] at hable
  rw [enqueue, hnobody, List.append_nil]

theorem enqueue_single (hlined : Lined tasks)
    (hrecovery : .recovery 0 ∈ queue ∨ s.recoveryStep? clock .stop store log = none)
    (hworker : .worker 0 ∈ queue ∨ s.workerStep? clock false store = none) :
    (single clock store log s tasks queue).enqueue = single clock store log s tasks queue := by
  refine enqueue_eq_self fun task htask ↦ ?_
  rcases (hlined.mem_iff task).mp htask with rfl | rfl
  · refine hrecovery.imp_right fun hwaits ↦ ?_
    rw [taskStep?_recovery, hwaits]
    rfl
  · refine hworker.imp_right fun hwaits ↦ ?_
    rw [taskStep?_worker, hwaits]
    rfl

theorem enqueue_worker (hlined : Lined tasks) (hqueue : .worker 0 ∉ queue)
    (hrecovery : .recovery 0 ∈ queue ∨ s.recoveryStep? clock .stop store log = none)
    (hworker : (s.workerStep? clock false store).isSome) :
    (single clock store log s tasks queue).enqueue =
      single clock store log s tasks (queue ++ [.worker 0]) := by
  refine congrArg (fun more ↦ single clock store log s tasks (queue ++ more))
    (hlined.filter_worker ?_ ?_)
  · rw [taskStep?_worker, Option.isSome_map, hworker, Bool.and_true]
    simpa [single] using hqueue
  · rcases hrecovery with hmem | hwaits
    · simp [single, hmem]
    · simp [taskStep?_recovery, hwaits]

theorem enqueue_recovery (hlined : Lined tasks) (hqueue : .recovery 0 ∉ queue)
    (hworker : .worker 0 ∈ queue ∨ s.workerStep? clock false store = none)
    (hrecovery : (s.recoveryStep? clock .stop store log).isSome) :
    (single clock store log s tasks queue).enqueue =
      single clock store log s tasks (queue ++ [.recovery 0]) := by
  refine congrArg (fun more ↦ single clock store log s tasks (queue ++ more))
    (hlined.filter_recovery ?_ ?_)
  · rw [taskStep?_recovery, Option.isSome_map, hrecovery, Bool.and_true]
    simpa [single] using hqueue
  · rcases hworker with hmem | hwaits
    · simp [single, hmem]
    · simp [taskStep?_worker, hwaits]

/-! ### Turns -/

theorem Works.worker {n : Nat} {after : Engine β σ} {next : Sequencer} {written : β}
    (hstep : s.workerStep? clock false store = some (next, written))
    (hworks : Works (.worker 0) n (single clock written log next tasks queue) after) :
    Works (.worker 0) (n + 1) (single clock store log s tasks queue) after := by
  refine .step ?_ hworks
  rw [taskStep?_worker, hstep]
  rfl

theorem Works.worker_rest {n : Nat} (hwaits : s.workerStep? clock false store = none) :
    Works (.worker 0) n (single clock store log s tasks queue)
      (single clock store log s tasks queue) := by
  refine .rest ?_
  rw [taskStep?_worker, hwaits]
  rfl

theorem Works.recovery {n : Nat} {after : Engine β σ} {next : Sequencer} {read : β} {readLog : σ}
    (hstep : s.recoveryStep? clock .stop store log = some (next, read, readLog))
    (hworks : Works (.recovery 0) n (single clock read readLog next tasks queue) after) :
    Works (.recovery 0) (n + 1) (single clock store log s tasks queue) after := by
  refine .step ?_ hworks
  rw [taskStep?_recovery, hstep]
  rfl

theorem Works.recovery_rest {n : Nat} (hwaits : s.recoveryStep? clock .stop store log = none) :
    Works (.recovery 0) n (single clock store log s tasks queue)
      (single clock store log s tasks queue) := by
  refine .rest ?_
  rw [taskStep?_recovery, hwaits]
  rfl

theorem Works.turn_single {task : Task} {n : Nat} {after : Engine β σ}
    (h : Works task n (single clock store log s (tasks.erase task ++ [task]) queue) after)
    (hn : n ≤ 100) : (single clock store log s tasks queue).turn task = after := h.turn_eq hn

theorem Settles.single {task : Task} {n : Nat} {stepped after : Engine β σ}
    (hturn : (single clock store log s tasks queue).turn task = stepped)
    (hsettles : Settles n stepped.enqueue after) :
    Settles (n + 1) (single clock store log s tasks (task :: queue)) after := by
  refine .turn rfl ?_
  change Settles n ((Engine.single clock store log s tasks queue).turn task).enqueue after
  rw [hturn]
  exact hsettles

variable (clock store log queue)

/-- The worker lands the batch that was handed off. -/
theorem turn_lands (hlined : Lined tasks) (hidle : s.IsIdle) {batch : Batch}
    (hbatch : s.flusher.handedOff? = some batch) {after : β}
    (hput : Checkpoint.putBatch store s.partition batch.rows = (.ok (), after)) :
    ∃ tasks', Lined tasks' ∧ (single clock store log s tasks queue).turn (.worker 0) =
      single clock after log s.landed tasks' queue := by
  have htakes : s.workerStep? clock false store = some ({ s with flusher := { s.flusher with
      handedOff? := none, worker := .writing batch 0 } }, store) :=
    Sequencer.workerStep?_takes hidle hbatch
  have hwrites : Sequencer.workerStep? { s with flusher := { s.flusher with
      handedOff? := none, worker := .writing batch 0 } } clock false store =
        some ({ s with flusher := { s.flusher with
          handedOff? := none, worker := .clearing } }, after) :=
    Sequencer.workerStep?_writes rfl hput
  have hclears : Sequencer.workerStep? { s with flusher := { s.flusher with
      handedOff? := none, worker := .clearing } } clock false after = some (s.landed, after) := by
    simp [Sequencer.workerStep?, Flusher.workerStep?, Sequencer.landed, hidle.worker]
  refine ⟨_, hlined.turn (Or.inr rfl), Works.turn_single (n := 3) ?_ (by decide)⟩
  exact .worker htakes (.worker hwrites (.worker hclears
    (.worker_rest (Sequencer.workerStep?_eq_none hidle.landed rfl))))

/-- The worker of a closed flusher ends. -/
theorem turn_ends (hlined : Lined tasks) (hworker : s.flusher.worker = .idle)
    (hnothing : s.flusher.handedOff? = none) (hclosed : s.flusher.isOpen = false) :
    ∃ tasks', Lined tasks' ∧ (single clock store log s tasks queue).turn (.worker 0) =
      single clock store log { s with flusher := { s.flusher with worker := .gone } } tasks'
        queue := by
  have hends : s.workerStep? clock false store =
      some ({ s with flusher := { s.flusher with worker := .gone } }, store) := by
    simp [Sequencer.workerStep?, Flusher.workerStep?, hworker, hnothing, hclosed]
  exact ⟨_, hlined.turn (Or.inr rfl),
    Works.turn_single (n := 1) (.worker hends (.worker_rest rfl)) (by decide)⟩

/-- The recovery task of a sequencer that is stopping ends before its next attempt. -/
theorem turn_gives_up (hlined : Lined tasks) {failures : Nat}
    (hrecovery : s.recovery = .checking failures) (hstopping : s.isStopping = true) :
    ∃ tasks', Lined tasks' ∧ (single clock store log s tasks queue).turn (.recovery 0) =
      single clock store log { s with recovery := .absent } tasks' queue := by
  have hends : s.recoveryStep? clock .stop store log =
      some ({ s with recovery := .absent }, store, log) := by
    simp [Sequencer.recoveryStep?, hrecovery, hstopping]
  exact ⟨_, hlined.turn (Or.inl rfl),
    Works.turn_single (n := 1) (.recovery hends (.recovery_rest rfl)) (by decide)⟩

/-- The recovery task installs the counters that the checkpoint and the log come to. -/
theorem turn_installs (hlined : Lined tasks) {failures : Nat}
    (hrecovery : s.recovery = .checking failures) (hserving : s.isStopping = false)
    (hactive : s.flusher.active = false) {counters : Counters} {read : β} {readLog : σ}
    (hreplay : Checkpoint.replay store log s.partition = (.ok counters, read, readLog)) :
    ∃ tasks', Lined tasks' ∧ (single clock store log s tasks queue).turn (.recovery 0) =
      single clock read readLog (s.install counters) tasks' queue := by
  obtain ⟨checkpoint, reading, hread, hlog, hobserve⟩ := Checkpoint.replay_eq_ok hreplay
  have hchecks : s.recoveryStep? clock .stop store log =
      some ({ s with recovery := .awaitingFlusher failures }, store, log) := by
    simp [Sequencer.recoveryStep?, hrecovery, hserving]
  have hleaves : Sequencer.recoveryStep? { s with recovery := .awaitingFlusher failures }
      clock .stop store log = some ({ s with recovery := .clearing failures }, store, log) := by
    simp [Sequencer.recoveryStep?, Sequencer.leaveWait?, hserving, hactive]
  have hclears : Sequencer.recoveryStep? { s with recovery := .clearing failures }
      clock .stop store log = some ({ s with
        counters := .empty, recovery := .readingCheckpoint failures }, store, log) := rfl
  have hreads : Sequencer.recoveryStep? { s with
      counters := .empty, recovery := .readingCheckpoint failures } clock .stop store log =
        some ({ s with
          counters := .empty, recovery := .readingLog failures checkpoint }, read, log) := by
    simp only [Sequencer.recoveryStep?, hread]
  have hreplays : Sequencer.recoveryStep? { s with
      counters := .empty, recovery := .readingLog failures checkpoint } clock .stop read log =
        some ({ s with
          counters := .empty, recovery := .installing counters }, read, readLog) := by
    simp only [Sequencer.recoveryStep?, hlog, hobserve]
  have hinstalls : Sequencer.recoveryStep? { s with
      counters := .empty, recovery := .installing counters } clock .stop read readLog =
        some (s.install counters, read, readLog) := rfl
  exact ⟨_, hlined.turn (Or.inl rfl), Works.turn_single (n := 6) (.recovery hchecks (.recovery hleaves
    (.recovery hclears (.recovery hreads (.recovery hreplays (.recovery hinstalls
      (.recovery_rest rfl))))))) (by decide)⟩

end Engine

end LogSequencing
