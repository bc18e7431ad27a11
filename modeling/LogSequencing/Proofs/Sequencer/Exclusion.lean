import LogSequencing.Proofs.Sequencer.Session
import LogSequencing.Storage.Faulty
import LogSequencing.Storage.Rows

/-!
# Recovery and allocation exclude each other

While the status is `recovering`, nothing is handed out and no batch is handed off, so that an attempt
that has waited for the flusher reads the checkpoint undisturbed. What it installs in the end is what
a replay comes to that meets no failure, whatever earlier attempts have read; and once the status is
`ready`, no recovery task is left. All this holds after any run without a shutdown
(`Sequencer.Session.run_exclusive`).
-/

set_option autoImplicit false
set_option relaxedAutoImplicit false

namespace LogSequencing

namespace Sequencer

variable {s after : Sequencer} {reply : Reply}

/-- During a recovery a caller changes nothing and gets no number. -/
theorem ClientMove.of_recovering (h : ClientMove s reply after) (hstatus : s.status = .recovering) :
    after = s ∧ ¬ reply.Allots := by
  cases h with
  | stay hreply => exact ⟨rfl, hreply⟩
  | reopen hother => exact absurd hother (by simp [hstatus])
  | take _ _ hother _ => exact absurd hother (by simp [hstatus])
  | finish hother => exact absurd hother (by simp [hstatus])

namespace Session

variable {β σ : Type} [Backend β] [LogSource σ] {session : Session β σ}

/-- What the recovery task has in hand is what a replay has come to without a failure. -/
def Rebuilds (session : Session β σ) : Prop :=
  match session.sequencer.recovery with
  | .readingLog _ checkpoint =>
    (Checkpoint.readPartition session.storeRead session.sequencer.partition).1 = .ok checkpoint
  | .installing counters =>
    (Checkpoint.replay session.storeRead session.logRead session.sequencer.partition).1 =
      .ok counters
  | _ => True

/-- What keeps recovery and allocation apart. -/
structure Steady (session : Session β σ) : Prop where
  flusher : session.sequencer.flusher.Sound
  isOpen : session.sequencer.flusher.isOpen = true
  going : session.sequencer.isStopping = false
  held : session.sequencer.isDropped = false
  absent_iff : session.sequencer.recovery = .absent ↔ session.sequencer.status ≠ .recovering
  /-- A hand-off would need an event to be finished, and none is in progress. -/
  resting : session.sequencer.recovery.IsAttempting → session.sequencer.flusher.active = false
  rebuilds : session.Rebuilds

theorem steady_start (store : β) (log : σ) (partition : PartitionId) (config : Config) :
    Steady (start store log partition config) where
  flusher := Flusher.sound_start
  isOpen := rfl
  going := rfl
  held := rfl
  absent_iff := iff_of_true rfl nofun
  resting := False.elim
  rebuilds := trivial

/-! ### Callers -/

theorem Steady.client (h : session.Steady) {sequencer : Sequencer}
    (hmove : ClientMove session.sequencer reply sequencer) (calls : List Progress) :
    Steady { session with sequencer, calls } := by
  cases hmove with
  | stay _ => exact ⟨h.flusher, h.isOpen, h.going, h.held, h.absent_iff, h.resting, h.rebuilds⟩
  | reopen _ =>
    exact ⟨h.flusher, h.isOpen, h.going, h.held, iff_of_false nofun fun hother ↦ hother rfl,
      False.elim, trivial⟩
  | take workspace counters hbefore hafter =>
    have hidle : session.sequencer.status ≠ .recovering := by
      rcases hbefore with hstatus | hstatus <;> simp [hstatus]
    refine ⟨h.flusher, h.isOpen, h.going, h.held, ?_, h.resting, h.rebuilds⟩
    refine iff_of_true (h.absent_iff.mpr hidle) ?_
    rcases hafter with rfl | rfl <;> nofun
  | finish hstatus =>
    have habsent : session.sequencer.recovery = .absent :=
      h.absent_iff.mpr (by simp [hstatus])
    have hidle : ¬ session.sequencer.recovery.IsAttempting := by
      rw [habsent]
      exact not_false
    obtain ⟨hsound, hopen⟩ := h.flusher.collect h.isOpen
      session.sequencer.config.flushThreshold.toNat session.sequencer.finishedEvent
    exact ⟨hsound, hopen, h.going, h.held, iff_of_true habsent nofun,
      fun hattempting ↦ absurd hattempting hidle, h.rebuilds⟩

/-! ### The worker -/

/-- What a step of the worker does, if it does anything. -/
theorem Steady.work_cases (h : session.Steady) :
    session.work = session ∨ ∃ flusher store,
      Flusher.WorkerMove session.sequencer.partition false session.sequencer.flusher session.store
        flusher store ∧
      session.work = { session with
        sequencer := { session.sequencer with flusher }
        store } := by
  unfold Session.work
  cases hstep : session.sequencer.workerStep? session.clock false session.store with
  | none => exact Or.inl rfl
  | some result =>
    obtain ⟨after, store⟩ := result
    obtain ⟨flusher, rfl, hmove⟩ := workerMove_of_held h.held hstep
    rw [h.going] at hmove
    exact Or.inr ⟨flusher, store, hmove, rfl⟩

theorem Steady.work (h : session.Steady) : Steady session.work := by
  rcases h.work_cases with hwaits | ⟨flusher, store, hmove, hwork⟩
  · rwa [hwaits]
  · rw [hwork]
    refine ⟨hmove.sound h.flusher, hmove.keeps.2.trans h.isOpen, h.going, h.held, h.absent_iff, ?_,
      h.rebuilds⟩
    intro hattempting
    have hactive := h.resting hattempting
    cases hmove <;> first | exact hactive | rfl

/-- The worker hands nothing off. -/
theorem Steady.work_withholds (h : session.Steady) :
    session.work.sequencer.flusher.pending = session.sequencer.flusher.pending ∧
      ∀ batch, session.work.sequencer.flusher.handedOff? = some batch →
        session.sequencer.flusher.handedOff? = some batch := by
  rcases h.work_cases with hwaits | ⟨flusher, store, hmove, hwork⟩
  · rw [hwaits]
    exact ⟨rfl, fun _ hbatch ↦ hbatch⟩
  · rw [hwork]
    refine ⟨hmove.keeps.1, fun batch hbatch ↦ ?_⟩
    cases hmove with
    | take => exact nomatch hbatch
    | _ => exact hbatch

/-- While an attempt is going on, nothing is on its way to the store, and the worker waits. -/
theorem Steady.rests (h : session.Steady)
    (hattempting : session.sequencer.recovery.IsAttempting) :
    session.sequencer.flusher.carried = [] ∧ session.work = session := by
  have hactive := h.resting hattempting
  have hcarried := h.flusher.carried_eq_nil hactive
  refine ⟨hcarried, ?_⟩
  obtain ⟨hplace, -⟩ := h.flusher.resting hactive
  have hworker : session.sequencer.flusher.worker = .idle := by
    by_contra hother
    have hgone : session.sequencer.flusher.worker ≠ .gone := fun hgone ↦
      absurd (h.flusher.closed_of_gone hgone) (by simp [h.isOpen])
    exact absurd (h.flusher.active_of_working hother hgone) (by simp [hactive])
  simp [Session.work, workerStep?, Flusher.workerStep?, hworker, hplace, h.isOpen, isReleased, h.held]

/-! ### The recovery task -/

theorem Steady.isRecovering (h : session.Steady) (hpresent : session.sequencer.recovery ≠ .absent) :
    session.sequencer.status = .recovering :=
  by_contra fun hother ↦ hpresent (h.absent_iff.mpr hother)

theorem rebuilds_of_not_isAttempting (h : ¬ session.sequencer.recovery.IsAttempting) :
    session.Rebuilds := by
  unfold Rebuilds
  split
  case h_1 hreading =>
    rw [hreading] at h
    exact absurd trivial h
  case h_2 hinstalling =>
    rw [hinstalling] at h
    exact absurd trivial h
  case h_3 => trivial

/-- A checkpoint that was read and a log that was read after it come to a replay. -/
theorem Rebuilds.replay_eq (h : session.Rebuilds) {failures : Nat} {checkpoint counters : Counters}
    (hrecovery : session.sequencer.recovery = .readingLog failures checkpoint) {reading : Reading}
    {logBefore log : σ}
    (hread : LogSource.readFrom logBefore session.sequencer.partition checkpoint.offset =
      (reading, log))
    (hcounters : Checkpoint.observeReading checkpoint reading = .ok counters) :
    (Checkpoint.replay session.storeRead logBefore session.sequencer.partition).1 =
      .ok counters := by
  unfold Rebuilds at h
  rw [hrecovery] at h
  unfold Checkpoint.replay
  cases hcheckpoint : Checkpoint.readPartition session.storeRead session.sequencer.partition with
  | mk result store =>
    rw [hcheckpoint] at h
    obtain rfl : result = .ok checkpoint := h
    dsimp only
    rw [hread]
    exact hcounters

theorem Steady.recovery (h : session.Steady) (preference : Preference) :
    Steady (session.recovery preference) := by
  have hstays {recovery : RecoveryTask} (hbefore : session.sequencer.recovery ≠ .absent)
      (hafter : recovery ≠ .absent) :
      recovery = .absent ↔ session.sequencer.status ≠ .recovering :=
    iff_of_false hafter fun hother ↦ hother (h.isRecovering hbefore)
  have hpresent {recovery : RecoveryTask} (hbefore : session.sequencer.recovery = recovery)
      (hother : recovery ≠ .absent) : session.sequencer.recovery ≠ .absent := hbefore ▸ hother
  have hresting {recovery : RecoveryTask} (hbefore : session.sequencer.recovery = recovery)
      (hattempting : recovery.IsAttempting) : session.sequencer.flusher.active = false :=
    h.resting (hbefore ▸ hattempting)
  generalize hafter : session.recovery preference = after
  have hmove : RecoveryMove session after := hafter ▸ recovery_move h.going preference
  cases hmove with
  | stay => exact h
  | wander hbefore hother hidle =>
    exact ⟨h.flusher, h.isOpen, h.going, h.held, hstays hbefore hother,
      fun hattempting ↦ absurd hattempting hidle, rebuilds_of_not_isAttempting hidle⟩
  | attempt failures hbefore hactive =>
    exact ⟨h.flusher, h.isOpen, h.going, h.held, hstays (hpresent hbefore nofun) nofun,
      fun _ ↦ hactive, trivial⟩
  | clear failures hbefore =>
    exact ⟨h.flusher, h.isOpen, h.going, h.held, hstays (hpresent hbefore nofun) nofun,
      fun _ ↦ hresting hbefore trivial, trivial⟩
  | readCheckpoint failures checkpoint store hbefore hread =>
    exact ⟨h.flusher, h.isOpen, h.going, h.held, hstays (hpresent hbefore nofun) nofun,
      fun _ ↦ hresting hbefore trivial, congrArg Prod.fst hread⟩
  | readLog failures checkpoint counters reading log hbefore hread hcounters =>
    exact ⟨h.flusher, h.isOpen, h.going, h.held, hstays (hpresent hbefore nofun) nofun,
      fun _ ↦ hresting hbefore trivial, h.rebuilds.replay_eq hbefore hread hcounters⟩
  | install counters hbefore =>
    exact ⟨h.flusher, h.isOpen, h.going, h.held, iff_of_true rfl nofun, False.elim, trivial⟩

/-! ### Any steps -/

theorem Steady.step (h : session.Steady) {after : Session β σ} (hstep : Step session reply after) :
    after.Steady := by
  cases hstep with
  | client calls hmove => exact h.client hmove calls
  | recovery preference => exact h.recovery preference
  | work => exact h.work
  | pass clock store log =>
    exact ⟨h.flusher, h.isOpen, h.going, h.held, h.absent_iff, h.resting, h.rebuilds⟩

theorem Steady.run (h : session.Steady) (hserves : session.Serves) {actions : List (Action β σ)}
    (hgoing : .invoke .shutdown ∉ actions) :
    (session.run actions).Steady ∧ (session.run actions).Serves := by
  induction actions generalizing session with
  | nil => exact ⟨h, hserves⟩
  | cons action actions ih =>
    rw [List.mem_cons, not_or] at hgoing
    obtain ⟨hother, hgoing⟩ := hgoing
    exact ih (h.step (hserves.step_of_act action)) (hserves.act (Ne.symm hother)) hgoing

/-! ### What a recovery excludes -/

/-- The flusher has been handed nothing. -/
def Withholds (session after : Session β σ) : Prop :=
  after.sequencer.flusher.pending = session.sequencer.flusher.pending ∧
    ∀ batch, after.sequencer.flusher.handedOff? = some batch →
      session.sequencer.flusher.handedOff? = some batch

/-- How recovery and allocation exclude each other. -/
structure Exclusive (session : Session β σ) : Prop where
  silent : session.sequencer.status = .recovering → ∀ action,
    ¬ (session.act action).1.Allots ∧ Withholds session (session.act action).2
  /-- From the time when an attempt has waited for the flusher, nothing is on its way to the store. -/
  undisturbed : session.sequencer.recovery.IsAttempting →
    session.sequencer.flusher.active = false ∧ session.sequencer.flusher.carried = [] ∧
      session.work = session
  /-- A recovery ends with the counters that a replay of what it has read last comes to. -/
  installs : session.sequencer.status = .recovering → ∀ action,
    (session.act action).2.sequencer.status ≠ .recovering →
      (session.act action).2.sequencer.status = .ready ∧
      (Checkpoint.replay session.storeRead session.logRead session.sequencer.partition).1 =
        .ok (session.act action).2.sequencer.counters
  settled : session.sequencer.status = .ready ∨ session.sequencer.status = .eventing →
    session.sequencer.recovery = .absent ∧ ∀ preference, session.recovery preference = session
  /-- A recovery task begins only where there is none. -/
  alone : ∀ action, (session.act action).2.sequencer.recoveries ≠ session.sequencer.recoveries →
    session.sequencer.recovery = .absent

theorem RecoveryMove.keeps {after : Session β σ} (h : RecoveryMove session after) :
    after.sequencer.flusher = session.sequencer.flusher ∧
      after.sequencer.recoveries = session.sequencer.recoveries := by
  cases h <;> exact ⟨rfl, rfl⟩

theorem Steady.work_keeps (h : session.Steady) :
    session.work.sequencer.status = session.sequencer.status ∧
      session.work.sequencer.recoveries = session.sequencer.recoveries := by
  rcases h.work_cases with hwaits | ⟨flusher, store, -, hwork⟩
  · rw [hwaits]
    exact ⟨rfl, rfl⟩
  · rw [hwork]
    exact ⟨rfl, rfl⟩

variable {after : Session β σ}

theorem Steady.silent (h : session.Steady) (hstep : Step session reply after)
    (hstatus : session.sequencer.status = .recovering) :
    ¬ reply.Allots ∧ Withholds session after := by
  cases hstep with
  | client calls hmove =>
    obtain ⟨rfl, hreply⟩ := hmove.of_recovering hstatus
    exact ⟨hreply, rfl, fun _ hbatch ↦ hbatch⟩
  | recovery preference =>
    have hflusher := (recovery_move h.going preference).keeps.1
    unfold Withholds
    rw [hflusher]
    exact ⟨not_false, rfl, fun _ hbatch ↦ hbatch⟩
  | work => exact ⟨not_false, h.work_withholds⟩
  | pass clock store log => exact ⟨not_false, rfl, fun _ hbatch ↦ hbatch⟩

theorem Steady.installs (h : session.Steady) (hstep : Step session reply after)
    (hstatus : session.sequencer.status = .recovering)
    (hafter : after.sequencer.status ≠ .recovering) :
    after.sequencer.status = .ready ∧
      (Checkpoint.replay session.storeRead session.logRead session.sequencer.partition).1 =
        .ok after.sequencer.counters := by
  cases hstep with
  | client calls hmove =>
    obtain ⟨rfl, -⟩ := hmove.of_recovering hstatus
    exact absurd hstatus hafter
  | recovery preference =>
    have hmove := recovery_move h.going preference
    generalize session.recovery preference = after at hafter hmove ⊢
    cases hmove with
    | install counters hbefore =>
      have hrebuilds := h.rebuilds
      unfold Rebuilds at hrebuilds
      rw [hbefore] at hrebuilds
      exact ⟨rfl, hrebuilds⟩
    | _ => exact absurd hstatus hafter
  | work => exact absurd (h.work_keeps.1.trans hstatus) hafter
  | pass clock store log => exact absurd hstatus hafter

theorem Steady.alone (h : session.Steady) (hstep : Step session reply after)
    (hnew : after.sequencer.recoveries ≠ session.sequencer.recoveries) :
    session.sequencer.recovery = .absent := by
  cases hstep with
  | client calls hmove =>
    cases hmove with
    | reopen hstatus =>
      apply h.absent_iff.mpr
      rcases hstatus with hstatus | hstatus <;> simp [hstatus]
    | _ => exact absurd rfl hnew
  | recovery preference => exact absurd (recovery_move h.going preference).keeps.2 hnew
  | work => exact absurd h.work_keeps.2 hnew
  | pass clock store log => exact absurd rfl hnew

/-- Whatever callers, the recovery task and the worker do, and whatever reads and writes fail, as long
as no shutdown is asked for, recovery and allocation exclude each other. -/
theorem run_exclusive (store : β) (log : σ) (partition : PartitionId) (config : Config)
    {actions : List (Action β σ)} (hgoing : .invoke .shutdown ∉ actions) :
    ((start store log partition config).run actions).Exclusive := by
  obtain ⟨hsteady, hserves⟩ :=
    (steady_start store log partition config).run (fun _ hcall ↦ nomatch hcall) hgoing
  have hstep := hserves.step_of_act
  refine ⟨fun hstatus action ↦ hsteady.silent (hstep action) hstatus, fun hattempting ↦ ?_,
    fun hstatus action ↦ hsteady.installs (hstep action) hstatus, fun hstatus ↦ ?_,
    fun action ↦ hsteady.alone (hstep action)⟩
  · exact ⟨hsteady.resting hattempting, hsteady.rests hattempting⟩
  · have habsent := hsteady.absent_iff.mpr <| by
      rcases hstatus with hstatus | hstatus <;> simp [hstatus]
    refine ⟨habsent, fun preference ↦ ?_⟩
    unfold Session.recovery recoveryStep?
    rw [habsent]

/-! ### Attempts that fail -/

/-- A log whose next reads end too early. -/
structure InterruptedLog where
  events : List Event
  /-- How many events each of the next reads visits before it fails. -/
  failures : List Nat

instance : LogSource InterruptedLog where
  readFrom log partition start :=
    let wanted := log.events.filter (start ≤ ·.offset)
    match log.failures with
    | [] => (⟨wanted, none⟩, log)
    | visited :: failures =>
      (⟨wanted.take visited, some (.unavailable partition "interrupted")⟩, { log with failures })

def committed : List Event :=
  [⟨⟨1⟩, .ofMilliseconds 0, ⟨10⟩, ⟨1⟩, [⟨⟨7⟩, .wDoc, true⟩], []⟩,
    ⟨⟨2⟩, .ofMilliseconds 0, ⟨20⟩, ⟨1⟩, [⟨⟨5⟩, .cDoc, true⟩], []⟩]

/-- The checkpoint cannot be read at first, and then the log only in part. -/
def troubled : Session (Faulty Rows) InterruptedLog :=
  start ⟨∅, .times 1, .none⟩ ⟨committed, [1]⟩ ⟨1⟩ .default

/-- Two attempts that fail and a third one, with a caller who waits to start an event. -/
def retrying : List (Action (Faulty Rows) InterruptedLog) :=
  [.recover, .invoke (.start ⟨10⟩ 60000), .advance 0 .progress] ++
    List.replicate 4 (.recovery .progress) ++ [.wait 1000] ++
    List.replicate 6 (.recovery .progress) ++ [.wait 1000, .advance 0 .progress] ++
    List.replicate 6 (.recovery .progress)

theorem retrying_exclusive :
    (troubled.run retrying).sequencer.status = .recovering ∧
      (Checkpoint.replay (troubled.run retrying).storeRead (troubled.run retrying).logRead ⟨1⟩).1 =
        .ok ((troubled.run retrying).act (.recovery .progress)).2.sequencer.counters := by
  have hexclusive : (troubled.run retrying).Exclusive :=
    run_exclusive _ _ _ _ (by simp [retrying])
  have hstatus : (troubled.run retrying).sequencer.status = .recovering := by decide +kernel
  have hpartition : (troubled.run retrying).sequencer.partition = ⟨1⟩ := by decide +kernel
  have hinstalled := hexclusive.installs hstatus (.recovery .progress) (by decide +kernel)
  rw [hpartition] at hinstalled
  exact ⟨hstatus, hinstalled.2⟩

end Session

end Sequencer

end LogSequencing
