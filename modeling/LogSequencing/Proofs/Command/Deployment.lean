import LogSequencing.Command.Deployment
import LogSequencing.Proofs.Command.Load
import LogSequencing.Proofs.Flusher.Carrying
import LogSequencing.Proofs.Log.Partitions

/-!
# A deployed sequencer

What a command does with the sequencer that it deploys, on a store that never fails. Where the
checkpoints and the logs stand at the same events (`Standing`), deploying a sequencer recovers the
counters of its log (`Deployment.start_eq`). Stopping it lands what its flusher carries, so that the
checkpoint covers the log once more (`Deployment.Rests.stop`).
-/

set_option autoImplicit false
set_option relaxedAutoImplicit false

namespace LogSequencing

/-- The checkpoints and the logs of all partitions stand at these events, in which no numbers are
repeated. -/
structure Standing (rows : Rows) (log : FileLog) (history : PartitionId → List Event) : Prop where
  stores : ∀ partition, Checkpoint.Stores rows partition (observed (history partition))
  log : ∀ partition, log.Holds partition none history
  unrepeating : ∀ partition, Unrepeating (history partition)

theorem standing_empty (root : String) (now : Instant) :
    Standing ∅ (.empty root now) fun _ ↦ [] where
  stores partition := Checkpoint.stores_empty partition
  log partition := FileLog.holds_empty root now partition
  unrepeating _ := unrepeating_nil

theorem Standing.passTime {rows : Rows} {log : FileLog} {history : PartitionId → List Event}
    (h : Standing rows log history) (now : Instant) : Standing rows { log with now } history :=
  ⟨h.stores, fun partition ↦ (h.log partition).passTime now, h.unrepeating⟩

/-- Replaying a log on a checkpoint that covers it yields the counters of the log. -/
theorem Standing.replay_eq {β : Type} [Backend β] [LawfulBackend β] {store : β} {log : FileLog}
    {history : PartitionId → List Event} (h : Standing (LawfulBackend.rows store) log history)
    (partition : PartitionId) :
    ∃ after, LawfulBackend.rows after = LawfulBackend.rows store ∧
      Checkpoint.replay store log partition = (.ok (observed (history partition)), after, log) := by
  obtain ⟨after, hscan, hrows⟩ := Namespace.scan_eq_rows (α := StoredLast) Checkpoint.sequences store
    (Key.partitionStart partition)
  have hread : Checkpoint.readPartition store partition =
      (.ok (observed (history partition)), after) := by
    have hpartition := (h.stores partition).readPartition_eq
    unfold Checkpoint.readPartition at hpartition ⊢
    rw [hscan]
    exact Prod.ext (Prod.mk.inj hpartition).1 rfl
  have hproper := (h.unrepeating partition).proper
  have hkept : ∀ event ∈ ((history partition).map (Event.kept log.now)).filter
      ((observed (history partition)).offset ≤ ·.offset),
        ∃ original ∈ history partition, event.usage = original.usage := by
    intro event hevent
    obtain ⟨original, horiginal, rfl⟩ := List.mem_map.mp (List.mem_filter.mp hevent).1
    exact ⟨original, horiginal, rfl⟩
  have hobserved := (observed_tight hproper).observeAll_eq_self
    (fun event hevent ↦ by
      obtain ⟨original, horiginal, husage⟩ := hkept event hevent
      exact husage ▸ hproper original horiginal)
    (fun event hevent workspace kind taken htaken ↦ by
      obtain ⟨original, horiginal, husage⟩ := hkept event hevent
      exact Counters.taken_le_observeAll .empty horiginal (husage ▸ htaken))
  refine ⟨after, hrows, ?_⟩
  simp only [Checkpoint.replay, hread, (h.log partition).readFrom_eq, Checkpoint.observeReading,
    hobserved]

namespace Sequencer

/-- A sequencer that has been recovered, and what its flusher carries of the events finished since. -/
structure Carries (s : Sequencer) (base new : List Event) : Prop where
  flusher : ∃ sent waiting, sent ++ waiting = new ∧ s.flusher = .carrying base sent waiting
  isKept : s.isDropped = false
  unclaimed : s.recoveryUnclaimed = true

/-- A sequencer that is ready after these events. -/
structure ReadyAfter (s : Sequencer) (base new : List Event) : Prop extends s.Carries base new where
  status : s.status = .ready
  settled : s.recovery = .absent
  serving : s.isStopping = false
  counters : s.counters = observed (base ++ new)

variable {s : Sequencer} {base new : List Event}

theorem Carries.isIdle (h : s.Carries base new) : s.IsIdle := by
  obtain ⟨sent, waiting, -, hflusher⟩ := h.flusher
  exact ⟨by rw [hflusher]; rfl, by rw [hflusher]; rfl, h.isKept⟩

end Sequencer

namespace Deployment

variable {β : Type} {deployment : Deployment β} {s : Sequencer} {store : β} {log : FileLog}
  {partition : PartitionId} {history : PartitionId → List Event} {new : List Event}

/-- The deployment runs this sequencer on this store and this log. -/
structure Runs (deployment : Deployment β) (s : Sequencer) (store : β) (log : FileLog) : Prop where
  number : deployment.number = 0
  partition : deployment.partition = s.partition
  deployed : deployment.registry.deployed.values = [0]
  engine : ∃ tasks, Engine.Lined tasks ∧
    deployment.engine = Engine.single 0 store log s tasks (Engine.lineUp s)

theorem Runs.counters (h : deployment.Runs s store log) : deployment.counters = s.counters := by
  obtain ⟨tasks, -, hengine⟩ := h.engine
  rw [Deployment.counters, h.number, hengine]
  rfl

/-- The deployment may be stopped: no event is being built, and the log is at rest after these events
of its partition. -/
def Rests (deployment : Deployment β) (store : β) (partition : PartitionId)
    (history : PartitionId → List Event) (new : List Event) : Prop :=
  ∃ s log, deployment.Runs s store log ∧ s.partition = partition ∧
    s.Carries (history partition) new ∧ s.status ≠ .eventing ∧
    (s.recovery = .absent ∨ ∃ failures, s.recovery = .checking failures) ∧
    log.Holds partition none (Function.update history partition (history partition ++ new))

variable [Backend β]

/-! ### Deploying -/

theorem values_insert_empty (partition : PartitionId) (number : Nat) :
    ((∅ : Std.ExtTreeMap PartitionId Nat compare).insert partition number).values = [number] := by
  rfl

theorem start_of_ready {settings : Settings} {created registry : Registry} {number : Nat}
    {engine after : Engine β FileLog}
    (hcreate : Registry.create settings.config = .ok created)
    (hdeploy : created.deploy (Engine.start store log) partition = (number, registry, engine))
    (hready : engine.perform number (.awaitReady settings.patience) = (some (.ready true), after)) :
    start settings store log partition =
      .ok (true, ⟨partition, settings, registry, number, after⟩) := by
  rw [start, hcreate]
  change Except.bind (.ok created) _ = _
  rw [Except.bind, hdeploy]
  dsimp only
  rw [hready]
  rfl

/-- Deploying the sequencer of a partition recovers the counters of its log. -/
theorem start_eq [LawfulBackend β] {settings : Settings}
    (h : Standing (LawfulBackend.rows store) log history) (hconfig : settings.config.validate = .ok ())
    (hpatience : 0 < settings.recoveryTimeout) (partition : PartitionId) :
    ∃ (deployment : Deployment β) (s : Sequencer) (after : β),
      start settings store log partition = .ok (true, deployment) ∧
      deployment.Runs s after log ∧ s.partition = partition ∧
      s.ReadyAfter (history partition) [] ∧
      LawfulBackend.rows after = LawfulBackend.rows store := by
  obtain ⟨after, hrows, hreplay⟩ := h.replay_eq partition
  let s : Sequencer := (Sequencer.create partition settings.config).startRecovery
  have hidle : s.IsIdle := ⟨rfl, rfl, rfl⟩
  have hlined : Engine.Lined [.recovery 0, .worker 0] := Or.inl rfl
  have hlines : (Engine.single 0 store log s [.recovery 0, .worker 0] []).enqueue =
      Engine.single 0 store log s [.recovery 0, .worker 0] (Engine.lineUp s) :=
    Engine.enqueue_recovery hlined List.not_mem_nil
      (Or.inr (Sequencer.workerStep?_eq_none hidle rfl)) rfl
  let registry : Registry := ⟨settings.config, (∅ : Std.ExtTreeMap PartitionId Nat compare).insert
    partition 0⟩
  have hdeploy : Registry.deploy ⟨settings.config, ∅⟩ (Engine.start store log) partition =
      (0, registry, Engine.single 0 store log s [.recovery 0, .worker 0] (Engine.lineUp s)) := by
    have hget : Registry.get? ⟨settings.config, ∅⟩ partition = none :=
      Std.ExtTreeMap.getElem?_empty
    rw [Registry.deploy, hget, ← hlines]
    rfl
  have hcreate : Registry.create settings.config = .ok ⟨settings.config, ∅⟩ := by
    rw [Registry.create, hconfig]
    rfl
  have hpatience' : 0 < settings.patience :=
    Nat.mul_pos (UInt64.lt_iff_toNat_lt.mp hpatience) (by decide)
  obtain ⟨tasks, hlined', hready⟩ := Engine.perform_awaitReady 0 store log hlined hidle rfl rfl rfl
    rfl rfl hreplay hpatience'
  let ready : Sequencer := s.install (observed (history partition))
  have hcarries : ready.Carries (history partition) [] :=
    ⟨⟨[], [], rfl, (Flusher.carrying_nothing _).symm⟩, rfl, rfl⟩
  refine ⟨_, ready, after, start_of_ready hcreate hdeploy hready,
    ⟨rfl, rfl, values_insert_empty partition 0, tasks, hlined', rfl⟩, rfl,
    ⟨hcarries, rfl, rfl, rfl, ?_⟩, hrows⟩
  rw [List.append_nil]
  rfl

/-! ### Stopping -/

theorem Runs.stop_eq (h : deployment.Runs s store log) {after : Engine β FileLog}
    (hperform : deployment.engine.perform 0 (.shutdown .requesting) = (some .stopped, after)) :
    deployment.stop = (.ok (), after.store, after.log) := by
  simp only [Deployment.stop, Registry.shutdown, h.deployed, Registry.shutdownAll, hperform]

theorem lastBatch?_carrying {base sent waiting : List Event}
    (h : s.flusher = .carrying base sent waiting) :
    Engine.lastBatch? s = stretchBatch? (base ++ sent) waiting := by
  have hcount : s.flusher.pending.count = waiting.length := by
    rw [h]
    exact Counters.count_batchOf _ _
  rw [Engine.lastBatch?, stretchBatch?, hcount, h]
  simp only [List.length_eq_zero_iff]
  rfl

/-- Once the deployment is stopped, its checkpoint covers its log. -/
theorem Rests.stop [LawfulBackend β] (h : deployment.Rests store partition history new)
    (hstores : ∀ other, Checkpoint.Stores (LawfulBackend.rows store) other
      (observed (history other)))
    (hunrepeating : ∀ other, Unrepeating
      (Function.update history partition (history partition ++ new) other)) :
    ∃ after log, deployment.stop = (.ok (), after, log) ∧
      Standing (LawfulBackend.rows after) log
        (Function.update history partition (history partition ++ new)) := by
  obtain ⟨s, log, hruns, rfl, hcarries, hstatus, hrecovery, hlog⟩ := h
  obtain ⟨sent, waiting, rfl, hflusher⟩ := hcarries.flusher
  obtain ⟨tasks, hlined, hengine⟩ := hruns.engine
  obtain ⟨after, hstore, hafter, hperform⟩ := Engine.perform_shutdown 0 store log hlined
    hcarries.isIdle (by rw [hflusher]; rfl) hstatus hrecovery hcarries.unclaimed (by rw [hflusher]; rfl)
  have hhandedOff : s.flusher.handedOff? = stretchBatch? (history s.partition) sent := by
    rw [hflusher]
    rfl
  rw [hhandedOff, lastBatch?_carrying hflusher] at hstore
  rw [← hengine] at hperform
  refine ⟨after.store, after.log, hruns.stop_eq hperform, ⟨fun other ↦ ?_, fun other ↦ ?_,
    hunrepeating⟩⟩
  · rw [hstore]
    by_cases hother : other = s.partition
    · subst hother
      rw [Function.update_self]
      refine (hstores s.partition).landOn_carrying ?_
      have hproper := (hunrepeating s.partition).proper
      rwa [Function.update_self] at hproper
    · rw [Function.update_of_ne hother]
      exact ((hstores other).landOn_elsewhere hother _).landOn_elsewhere hother _
  · rw [hafter]
    exact hlog.close other

/-- A deployment that is stopped answers with its counters, or with what went wrong before. -/
theorem conclude_eq {result : Except Breakdown Unit} {after : β}
    (hstop : deployment.stop = (.ok (), after, log))
    (hviolation : ∀ violation, result ≠ .error (.violation violation)) :
    deployment.conclude result = (result.map fun _ ↦ deployment.counters, after, log) := by
  unfold conclude
  split
  · exact absurd rfl (hviolation _)
  · rw [hstop]
    rfl

end Deployment

end LogSequencing
