import LogSequencing.Proofs.Life.Draft
import LogSequencing.Proofs.Life.Outline

/-!
# Starting again

After a crash a new sequencer loads its counters from what the store and the log have kept. If it
meets no failure it is ready after a few steps, with the counters that a recovery comes to
(`Life.run_reopening`).
-/

set_option autoImplicit false
set_option relaxedAutoImplicit false

namespace LogSequencing.Life

variable {β : Type} [Backend β] {life : Life β} {counters : Counters}

/-- A recovery that meets no failure. -/
def loading : List Action := .recover :: List.replicate 6 (.recovery .progress)

/-- A crash, and then a recovery that meets no failure. -/
def reopening (config : Config) : List Action :=
  [.disturb .none .none 0, .crash config] ++ loading

/-- A new sequencer is loading its counters. -/
def rebuilding (life : Life β) (config : Config) (store : Faulty β) (log : MemoryLog)
    (recovery : RecoveryTask) : Life β where
  store
  log
  sequencer := { (Sequencer.create life.partition config).startRecovery with recovery }
  clock := life.clock
  stage := .serving
  draft? := none
  settled := []

/-- A new sequencer has loaded its counters and is ready. -/
def reopened (life : Life β) (config : Config) (store : Faulty β) (log : MemoryLog)
    (counters : Counters) : Life β where
  store
  log
  sequencer := (Sequencer.create life.partition config).startRecovery.install counters
  clock := life.clock
  stage := .serving
  draft? := none
  settled := []

/-- A recovery reads the checkpoint first and then the log. -/
theorem exists_reads (h : life.recovered = .ok counters) :
    ∃ checkpoint store reading log,
      Checkpoint.readPartition life.store.heal life.partition = (.ok checkpoint, store) ∧
      LogSource.readFrom { life.log with failingReads := 0 } life.partition checkpoint.offset =
        (reading, log) ∧
      Checkpoint.observeReading checkpoint reading = .ok counters := by
  rw [recovered, Checkpoint.replay] at h
  cases hread : Checkpoint.readPartition life.store.heal life.partition with
  | mk result store =>
    rw [hread] at h
    cases result with
    | error error => exact nomatch h
    | ok checkpoint => exact ⟨checkpoint, store, _, _, rfl, rfl, h⟩

/-- A sequencer started again is ready with the counters that a recovery comes to. -/
theorem run_reopening (h : life.recovered = .ok counters) (config : Config) :
    ∃ store log, log.partitions = life.log.partitions ∧
      life.run (reopening config) = life.reopened config store log counters := by
  obtain ⟨checkpoint, store, reading, log, hread, hvisit, hcounters⟩ := exists_reads h
  have hlog : log.partitions = life.log.partitions := by
    obtain ⟨after, hkeeps, ⟨_, hfailing, -⟩ | hreads⟩ := MemoryLog.readFrom_cases
      { life.log with failingReads := 0 } life.partition checkpoint.offset
    · exact absurd rfl hfailing
    · obtain rfl : log = after := congrArg Prod.snd (hvisit.symm.trans hreads)
      exact hkeeps
  refine ⟨store, log, hlog, ?_⟩
  have hbegin : life.run (reopening config) =
      (life.rebuilding config life.store.heal { life.log with failingReads := 0 }
        (.readingCheckpoint 0)).run (List.replicate 3 (.recovery .progress)) := rfl
  have hcheckpoint : (life.rebuilding config life.store.heal { life.log with failingReads := 0 }
      (.readingCheckpoint 0)).recovery .progress =
        life.rebuilding config store { life.log with failingReads := 0 }
          (.readingLog 0 checkpoint) := by
    simp only [Life.recovery, rebuilding, Sequencer.recoveryStep?]
    rw [show (Sequencer.create life.partition config).startRecovery.partition = life.partition
      from rfl, hread]
  have htail : (life.rebuilding config store { life.log with failingReads := 0 }
      (.readingLog 0 checkpoint)).recovery .progress =
        life.rebuilding config store log (.installing counters) := by
    simp only [Life.recovery, rebuilding, Sequencer.recoveryStep?]
    rw [show (Sequencer.create life.partition config).startRecovery.partition = life.partition
      from rfl, hvisit]
    simp only [hcounters]
  calc life.run (reopening config)
      = (((life.rebuilding config life.store.heal { life.log with failingReads := 0 }
          (.readingCheckpoint 0)).recovery .progress).recovery .progress).recovery .progress := hbegin
    _ = (life.rebuilding config store log (.installing counters)).recovery .progress := by
      rw [hcheckpoint, htail]
    _ = life.reopened config store log counters := rfl

/-! ### An empty partition -/

/-- A life on an empty store and an empty log, in which every event is checkpointed. -/
def blank : Life Rows :=
  start (.ofBackend Rows.empty) .empty .first { Config.default with flushThreshold := 1 }

theorem stores_blank : Checkpoint.Stores blank.store.rows blank.partition .empty :=
  Checkpoint.stores_empty _

/-- What the first event of a partition may take. -/
def firstUsage : Usage := ⟨⟨1⟩, ⟨10⟩, ⟨1⟩, [(.ordinary, ⟨1⟩)]⟩

/-- What an event of another workspace may take after it. -/
def otherUsage : Usage := ⟨⟨2⟩, ⟨20⟩, ⟨1⟩, []⟩

/-- An event with nothing but what it takes, from its start to its end. -/
def building (usage : Usage) : List Action :=
  .call (.reserving usage.workspace) .progress :: usage.ids.map (fun used ↦ .takeId used.1) ++
    [.commit usage.toEvent, .finish]

end LogSequencing.Life
