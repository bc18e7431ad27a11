import LogSequencing.Proofs.Checkpoint.Landing
import LogSequencing.Proofs.Engine.Single

/-!
# Calls on a single sequencer

What a call comes to in the engine of one sequencer on a store that never fails. Waiting for a
recovery installs what the checkpoint and the log come to (`perform_awaitReady`), an event starts at
once on a sequencer that is ready (`perform_start`), and a shutdown lands the batch that was handed
off and then the pending one (`perform_shutdown`).
-/

set_option autoImplicit false
set_option relaxedAutoImplicit false

namespace LogSequencing.Engine

/-- The tasks of an idle sequencer that can go on. -/
def lineUp (s : Sequencer) : List Task :=
  (if s.flusher.handedOff?.isSome then [.worker 0] else []) ++
    (if s.recovery.isAbsent then [] else [.recovery 0])

theorem lineUp_of_absent {s : Sequencer} (habsent : s.recovery = .absent)
    (hnothing : s.flusher.handedOff? = none) : lineUp s = [] := by
  simp [lineUp, habsent, hnothing, RecoveryTask.isAbsent]

theorem lineUp_of_checking {s : Sequencer} {failures : Nat} (hrecovery : s.recovery = .checking failures)
    (hnothing : s.flusher.handedOff? = none) : lineUp s = [.recovery 0] := by
  simp [lineUp, hrecovery, hnothing, RecoveryTask.isAbsent]

theorem lineUp_of_handedOff {s : Sequencer} {batch : Batch}
    (hbatch : s.flusher.handedOff? = some batch) : lineUp s = .worker 0 :: lineUp s.landed := by
  rw [lineUp, hbatch]
  rfl

variable {β σ : Type} [Backend β] [LogSource σ] {clock : Nat} {store : β} {log : σ} {s : Sequencer}
  {tasks queue : List Task}

theorem recoveryStep?_eq_none (habsent : s.recovery = .absent) :
    s.recoveryStep? clock .stop store log = none := by
  simp only [Sequencer.recoveryStep?, habsent]

theorem enqueue_lineUp (hlined : Lined tasks) (hidle : s.IsIdle) :
    (single clock store log s tasks (lineUp s)).enqueue =
      single clock store log s tasks (lineUp s) := by
  refine enqueue_single hlined ?_ ?_
  · cases hrecovery : s.recovery with
    | absent => exact Or.inr (recoveryStep?_eq_none hrecovery)
    | _ => exact Or.inl (by simp [lineUp, hrecovery, RecoveryTask.isAbsent])
  · cases hbatch : s.flusher.handedOff? with
    | none => exact Or.inr (Sequencer.workerStep?_eq_none hidle hbatch)
    | some batch => exact Or.inl (by simp [lineUp, hbatch])

theorem enqueue_idle (hlined : Lined tasks) (hidle : s.IsIdle)
    (hnothing : s.flusher.handedOff? = none) (habsent : s.recovery = .absent) :
    (single clock store log s tasks []).enqueue = single clock store log s tasks [] := by
  rw [← lineUp_of_absent habsent hnothing]
  exact enqueue_lineUp hlined hidle

/-- The worker lines up if a batch has been handed off. -/
theorem enqueue_finished {s' : Sequencer} (hlined : Lined tasks) (hidle : s'.IsIdle)
    (habsent : s.recovery = .absent) (habsent' : s'.recovery = .absent)
    (hsent : s.flusher.handedOff? = none ∨ s'.flusher.handedOff? = s.flusher.handedOff?) :
    (single clock store log s' tasks (lineUp s)).enqueue =
      single clock store log s' tasks (lineUp s') := by
  by_cases hsame : s'.flusher.handedOff? = s.flusher.handedOff?
  · have hlineUp : lineUp s = lineUp s' := by
      rw [lineUp, lineUp, hsame, habsent, habsent']
    rw [hlineUp]
    exact enqueue_lineUp hlined hidle
  · have hnothing := hsent.resolve_right hsame
    obtain ⟨batch, hbatch⟩ : ∃ batch, s'.flusher.handedOff? = some batch :=
      Option.ne_none_iff_exists'.mp (hnothing ▸ hsame)
    have hworks : (s'.workerStep? clock false store).isSome := by
      rw [Sequencer.workerStep?_takes hidle hbatch]
      rfl
    have hlineUp : lineUp s' = [.worker 0] :=
      (lineUp_of_handedOff hbatch).trans (congrArg _ (lineUp_of_absent habsent' rfl))
    rw [lineUp_of_absent habsent hnothing, hlineUp]
    exact enqueue_worker hlined List.not_mem_nil (Or.inr (recoveryStep?_eq_none habsent')) hworks

/-! ### Settling -/

section Settling

variable (clock store log)

/-- The recovery task of a sequencer that is stopping has ended when everything waits. -/
theorem settles_ends (hlined : Lined tasks) (hidle : s.IsIdle)
    (hnothing : s.flusher.handedOff? = none) (hstopping : s.isStopping = true)
    (hrecovery : s.recovery = .absent ∨ ∃ failures, s.recovery = .checking failures) :
    ∃ tasks', Lined tasks' ∧ Settles 1 (single clock store log s tasks (lineUp s))
      (single clock store log { s with recovery := .absent } tasks' []) := by
  rcases hrecovery with habsent | ⟨failures, hchecking⟩
  · refine ⟨tasks, hlined, ?_⟩
    rw [lineUp_of_absent habsent hnothing, ← habsent]
    exact .rest rfl
  · obtain ⟨last, hlast, hturn⟩ := turn_gives_up clock store log [] hlined hchecking
      hstopping
    have hidle' : Sequencer.IsIdle { s with recovery := .absent } :=
      ⟨hidle.worker, hidle.isOpen, hidle.isKept⟩
    refine ⟨last, hlast, ?_⟩
    rw [lineUp_of_checking hchecking hnothing]
    refine .single hturn ?_
    rw [enqueue_idle hlast hidle' hnothing rfl]
    exact .rest rfl

theorem landed_eq_self (hnothing : s.flusher.handedOff? = none) (hactive : s.flusher.active = false) :
    s.landed = s := by
  have hflusher : { s.flusher with handedOff? := none, active := false } = s.flusher := by
    rw [← hnothing, ← hactive]
  rw [Sequencer.landed, hflusher]

/-- A sequencer that is stopping settles: what was handed off lands, and the recovery task ends. -/
theorem settle_stopping [LawfulBackend β] (hlined : Lined tasks) (hidle : s.IsIdle)
    (hactive : s.flusher.active = s.flusher.handedOff?.isSome) (hstopping : s.isStopping = true)
    (hrecovery : s.recovery = .absent ∨ ∃ failures, s.recovery = .checking failures) :
    ∃ tasks', Lined tasks' ∧ (single clock store log s tasks (lineUp s)).settle =
      single clock (Checkpoint.landOn store s.partition s.flusher.handedOff?) log
        { s.landed with recovery := .absent } tasks' [] := by
  cases hbatch : s.flusher.handedOff? with
  | none =>
    have hlow : s.flusher.active = false := by rw [hactive, hbatch, Option.isSome_none]
    obtain ⟨last, hlast, hends⟩ := settles_ends clock store log hlined hidle hbatch hstopping
      hrecovery
    refine ⟨last, hlast, ?_⟩
    rw [landed_eq_self hbatch hlow]
    exact hends.settle_eq (by decide)
  | some batch =>
    obtain ⟨next, hnext, hturn⟩ := turn_lands clock store log (lineUp s.landed) hlined hidle
      hbatch (Checkpoint.putBatch_eq_landOn store s.partition batch).1
    obtain ⟨last, hlast, hends⟩ := settles_ends clock
      (Checkpoint.landOn store s.partition (some batch)) log (s := s.landed) hnext hidle.landed rfl
      hstopping hrecovery
    refine ⟨last, hlast, Settles.settle_eq (n := 2) ?_ (by decide)⟩
    rw [lineUp_of_handedOff hbatch]
    refine .single hturn ?_
    rw [enqueue_lineUp hnext hidle.landed]
    exact hends

end Settling

/-! ### Steps of a call -/

theorem Carries.goes {n : Nat} {call next : Call} {s' : Sequencer} {stepped after : Engine β σ}
    {outcome : Outcome} (hstep : s.callStep? clock .stop call = some (.running next, s'))
    (henqueue : (single clock store log s' tasks queue).enqueue = stepped)
    (hcarries : Carries 0 n next stepped outcome after) :
    Carries 0 (n + 1) call (single clock store log s tasks queue) outcome after := by
  refine .step ?_ (henqueue ▸ hcarries)
  rw [callStep?_single, hstep]
  rfl

theorem Carries.ends {n : Nat} {call : Call} {s' : Sequencer} {after : Engine β σ}
    {outcome : Outcome} (hstep : s.callStep? clock .stop call = some (.ended outcome, s'))
    (henqueue : (single clock store log s' tasks queue).enqueue = after) :
    Carries 0 (n + 1) call (single clock store log s tasks queue) outcome after := by
  subst henqueue
  refine .finish ?_
  rw [callStep?_single, hstep]
  rfl

theorem Carries.waits {n : Nat} {call : Call} {settled after : Engine β σ} {outcome : Outcome}
    (hwaits : s.callStep? clock .stop call = none) (hqueue : queue ≠ [])
    (hsettle : (single clock store log s tasks queue).settle = settled)
    (hcarries : Carries 0 n call settled outcome after) :
    Carries 0 (n + 1) call (single clock store log s tasks queue) outcome after := by
  refine .wait ?_ hqueue (hsettle ▸ hcarries)
  rw [callStep?_single, hwaits]
  rfl

/-! ### Waiting for a recovery -/

variable (clock store log)

/-- Waiting for a recovery that has just begun ends when it has installed what it reads. -/
theorem perform_awaitReady (hlined : Lined tasks) (hidle : s.IsIdle)
    (hnothing : s.flusher.handedOff? = none) (hactive : s.flusher.active = false)
    (hstatus : s.status = .recovering) (hserving : s.isStopping = false) {failures : Nat}
    (hrecovery : s.recovery = .checking failures) {counters : Counters} {read : β} {readLog : σ}
    (hreplay : Checkpoint.replay store log s.partition = (.ok counters, read, readLog))
    {patience : Nat} (hpatience : 0 < patience) :
    ∃ tasks', Lined tasks' ∧
      (single clock store log s tasks (lineUp s)).perform 0 (.awaitReady patience) =
        (some (.ready true), single clock read readLog (s.install counters) tasks' []) := by
  obtain ⟨tasks', hlined', hturn⟩ := turn_installs clock store log [] hlined hrecovery
    hserving hactive hreplay
  have hinstalled : (single clock read readLog (s.install counters) tasks' []).enqueue =
      single clock read readLog (s.install counters) tasks' [] :=
    enqueue_idle hlined' ⟨hidle.worker, hidle.isOpen, hidle.isKept⟩ hnothing rfl
  have hsettle : (single clock store log s tasks [.recovery 0]).settle =
      single clock read readLog (s.install counters) tasks' [] := by
    refine Settles.settle_eq (n := 1) (.single hturn ?_) (by decide)
    rw [hinstalled]
    exact .rest rfl
  have hbegins : s.callStep? clock .stop (.awaitReady patience) =
      some (.running (.awaitingReady (clock + patience)), s) := by
    simp [Sequencer.callStep?, hstatus]
  have hwaits : s.callStep? clock .stop (.awaitingReady (clock + patience)) = none := by
    have hearly : ¬ clock + patience ≤ clock := by omega
    show (s.continueReady? clock (clock + patience)).map (·, s) = none
    rw [Sequencer.continueReady?, hstatus, if_neg Status.noConfusion, if_neg hearly]
    rfl
  have hends : (s.install counters).callStep? clock .stop (.awaitingReady (clock + patience)) =
      some (.ended (.ready true), s.install counters) := by
    simp [Sequencer.callStep?, Sequencer.continueReady?, Sequencer.install]
  rw [lineUp_of_checking hrecovery hnothing]
  refine ⟨tasks', hlined', Carries.perform_eq (n := 3) ?_ (by decide)⟩
  refine .goes hbegins ?_ (.waits hwaits (List.cons_ne_nil _ _) hsettle (.ends hends hinstalled))
  rw [← lineUp_of_checking hrecovery hnothing]
  exact enqueue_lineUp hlined hidle

/-! ### Starting an event -/

theorem perform_start (hlined : Lined tasks) (hidle : s.IsIdle) (hstatus : s.status = .ready)
    (hserving : s.isStopping = false) (workspace : WorkspaceId) (patience : Nat)
    {offsets : Offset × Offset} {s' : Sequencer} (htakes : s.takeOffsets workspace = (.ok offsets, s'))
    (hidle' : s'.IsIdle) (hlineUp : lineUp s' = lineUp s) :
    (single clock store log s tasks (lineUp s)).perform 0 (.start workspace patience) =
      (some (.started (some offsets)), single clock store log s' tasks (lineUp s')) := by
  have hbegins : s.callStep? clock .stop (.start workspace patience) =
      some (.running (.reserving workspace), s) := by
    simp [Sequencer.callStep?, Sequencer.beginStart, hserving, hstatus]
  have hends : s.callStep? clock .stop (.reserving workspace) =
      some (.ended (.started (some offsets)), s') := by
    simp [Sequencer.callStep?, Sequencer.reserve, hstatus, htakes]
  refine Carries.perform_eq (n := 2) (.goes hbegins (enqueue_lineUp hlined hidle) ?_) (by decide)
  refine .ends hends ?_
  rw [← hlineUp]
  exact enqueue_lineUp hlined hidle'

/-! ### Shutting down -/

/-- The batch that a shutdown hands off, if there is one. -/
def lastBatch? (s : Sequencer) : Option Batch :=
  if s.flusher.pending.count = 0 then none else some s.flusher.pending

/-- A sequencer that has nothing more to write is closed. -/
theorem carries_closing (hlined : Lined tasks) (hidle : s.IsIdle)
    (hnothing : s.flusher.handedOff? = none) (habsent : s.recovery = .absent)
    (hunclaimed : s.flusher.workerUnclaimed = true) :
    ∃ after : Engine β σ, after.store = store ∧ after.log = log ∧
      Carries 0 4 (.shutdown .closing) (single clock store log s tasks []) .stopped after := by
  let closed : Sequencer :=
    { s with flusher := { s.flusher with isOpen := false, workerUnclaimed := false } }
  let ended : Sequencer := { closed with flusher := { closed.flusher with worker := .gone } }
  let finished : Sequencer := { ended with status := .finished }
  have hcloses : s.callStep? clock .stop (.shutdown .closing) =
      some (.running (.shutdown .awaitingWorker), closed) := by
    simp [Sequencer.callStep?, Sequencer.shutdownStep?, hunclaimed, closed]
  have hwaits : closed.callStep? clock .stop (.shutdown .awaitingWorker) = none := by
    simp [Sequencer.callStep?, Sequencer.shutdownStep?, hidle.worker, closed]
  have hgone : ended.callStep? clock .stop (.shutdown .awaitingWorker) =
      some (.running (.shutdown .finishing), ended) := by
    simp [Sequencer.callStep?, Sequencer.shutdownStep?, ended]
  have hends : ended.callStep? clock .stop (.shutdown .finishing) =
      some (.ended .stopped, finished) := rfl
  have hworks : (closed.workerStep? clock false store).isSome := by
    simp [Sequencer.workerStep?, Flusher.workerStep?, closed, hidle.worker, hnothing]
  have hlines : (single clock store log closed tasks []).enqueue =
      single clock store log closed tasks [.worker 0] :=
    enqueue_worker hlined (List.not_mem_nil) (Or.inr (recoveryStep?_eq_none habsent)) hworks
  obtain ⟨tasks', hlined', hturn⟩ :=
    turn_ends clock store log [] (s := closed) hlined hidle.worker hnothing rfl
  have hquiet : (single clock store log ended tasks' []).enqueue =
      single clock store log ended tasks' [] :=
    enqueue_single hlined' (Or.inr (recoveryStep?_eq_none habsent)) (Or.inr rfl)
  have hsettle : (single clock store log closed tasks [.worker 0]).settle =
      single clock store log ended tasks' [] := by
    refine Settles.settle_eq (n := 1) (.single hturn ?_) (by decide)
    rw [hquiet]
    exact .rest rfl
  have hstopped : (single clock store log finished tasks' []).enqueue =
      single clock store log finished tasks' [] :=
    enqueue_single hlined' (Or.inr (recoveryStep?_eq_none habsent)) (Or.inr rfl)
  refine ⟨single clock store log finished tasks' [], rfl, rfl, ?_⟩
  exact .goes hcloses hlines (.waits hwaits (List.cons_ne_nil _ _) hsettle
    (.goes hgone hquiet (.ends hends hstopped)))

/-- What is pending is handed off and lands before the sequencer is closed. -/
theorem carries_handingOff [LawfulBackend β] (hlined : Lined tasks) (hidle : s.IsIdle)
    (hnothing : s.flusher.handedOff? = none) (hactive : s.flusher.active = false)
    (habsent : s.recovery = .absent) (hstopping : s.isStopping = true)
    (hunclaimed : s.flusher.workerUnclaimed = true) :
    ∃ after : Engine β σ, after.store = Checkpoint.landOn store s.partition (lastBatch? s) ∧
      after.log = log ∧
      Carries 0 7 (.shutdown .handingOff) (single clock store log s tasks []) .stopped after := by
  have hquiet : (single clock store log s tasks []).enqueue = single clock store log s tasks [] :=
    enqueue_idle hlined hidle hnothing habsent
  by_cases hpending : s.flusher.pending.count = 0
  · have hhandsOff : s.callStep? clock .stop (.shutdown .handingOff) =
        some (.running (.shutdown .draining), s) := by
      simp [Sequencer.callStep?, Sequencer.shutdownStep?, Flusher.tryHandOff, hpending]
    have hdrained : s.callStep? clock .stop (.shutdown .draining) =
        some (.running (.shutdown .closing), s) := by
      simp [Sequencer.callStep?, Sequencer.shutdownStep?, hactive]
    obtain ⟨after, hstore, hlog, hcloses⟩ :=
      carries_closing clock store log hlined hidle hnothing habsent hunclaimed
    rw [lastBatch?, if_pos hpending]
    exact ⟨after, hstore, hlog, .goes hhandsOff hquiet
      (.goes hdrained hquiet (hcloses.mono (by decide)))⟩
  · let sent : Sequencer := { s with flusher := { s.flusher with
      pending := .empty, active := true, handedOff? := some s.flusher.pending } }
    have hidle' : sent.IsIdle := ⟨hidle.worker, hidle.isOpen, hidle.isKept⟩
    have hhandsOff : s.callStep? clock .stop (.shutdown .handingOff) =
        some (.running (.shutdown .draining), sent) := by
      simp [Sequencer.callStep?, Sequencer.shutdownStep?, Flusher.tryHandOff, Flusher.handOff,
        hpending, hactive, hidle.isOpen, hidle.worker, hnothing, sent]
    have hwaits : sent.callStep? clock .stop (.shutdown .draining) = none := by
      simp [Sequencer.callStep?, Sequencer.shutdownStep?, sent]
    have hlines : (single clock store log sent tasks []).enqueue =
        single clock store log sent tasks (lineUp sent) := by
      rw [← lineUp_of_absent habsent hnothing]
      exact enqueue_finished hlined hidle' habsent habsent (Or.inl hnothing)
    obtain ⟨tasks', hlined', hsettle⟩ :=
      settle_stopping clock store log (s := sent) hlined hidle' rfl hstopping (Or.inl habsent)
    let landed : Sequencer := { sent.landed with recovery := .absent }
    have hdrained : landed.callStep? clock .stop (.shutdown .draining) =
        some (.running (.shutdown .closing), landed) := by
      simp [Sequencer.callStep?, Sequencer.shutdownStep?, landed, Sequencer.landed]
    have hidle'' : landed.IsIdle := ⟨hidle.worker, hidle.isOpen, hidle.isKept⟩
    have hquiet' (store : β) : (single clock store log landed tasks' []).enqueue =
        single clock store log landed tasks' [] :=
      enqueue_idle hlined' hidle'' rfl rfl
    obtain ⟨after, hstore, hlog, hcloses⟩ := carries_closing clock
      (Checkpoint.landOn store s.partition (some s.flusher.pending)) log (s := landed)
      hlined' hidle'' rfl rfl hunclaimed
    have hqueue : lineUp sent ≠ [] := by
      rw [lineUp_of_handedOff rfl]
      exact List.cons_ne_nil _ _
    rw [lastBatch?, if_neg hpending]
    exact ⟨after, hstore, hlog, .goes hhandsOff hlines (.waits hwaits hqueue hsettle
      (.goes hdrained (hquiet' _) hcloses))⟩

/-- The recovery task ends and what was handed off lands before what is pending is handed off. -/
theorem carries_awaitingRecovery [LawfulBackend β] (hlined : Lined tasks) (hidle : s.IsIdle)
    (hactive : s.flusher.active = s.flusher.handedOff?.isSome) (hstopping : s.isStopping = true)
    (hrecovery : s.recovery = .absent ∨ ∃ failures, s.recovery = .checking failures)
    (hunclaimed : s.flusher.workerUnclaimed = true) :
    ∃ after : Engine β σ, after.store = Checkpoint.landOn
        (Checkpoint.landOn store s.partition s.flusher.handedOff?) s.partition (lastBatch? s) ∧
      after.log = log ∧ Carries 0 10 (.shutdown (.awaitingRecovery s.recoveries))
        (single clock store log s tasks (lineUp s)) .stopped after := by
  let rested : Sequencer := { s.landed with recovery := .absent }
  have hidle' : rested.IsIdle := ⟨hidle.worker, hidle.isOpen, hidle.isKept⟩
  obtain ⟨tasks', hlined', hsettle⟩ :=
    settle_stopping clock store log hlined hidle hactive hstopping hrecovery
  have hquiet (store : β) : (single clock store log rested tasks' []).enqueue =
      single clock store log rested tasks' [] :=
    enqueue_idle hlined' hidle' rfl rfl
  have hrests : rested.callStep? clock .stop (.shutdown .awaitingFlush) =
      some (.running (.shutdown .handingOff), rested) := by
    simp [Sequencer.callStep?, Sequencer.shutdownStep?, rested, Sequencer.landed]
  obtain ⟨after, hstore, hlog, hhandsOff⟩ := carries_handingOff clock
    (Checkpoint.landOn store s.partition s.flusher.handedOff?) log (s := rested) hlined' hidle' rfl
    rfl rfl hstopping hunclaimed
  have hflushes := Carries.goes hrests (hquiet _) hhandsOff
  refine ⟨after, hstore, hlog, ?_⟩
  -- Which of the two waits there is depends on who is still at work.
  by_cases habsent : s.recovery = .absent
  · have hpasses : s.callStep? clock .stop (.shutdown (.awaitingRecovery s.recoveries)) =
        some (.running (.shutdown .awaitingFlush), s) := by
      simp [Sequencer.callStep?, Sequencer.shutdownStep?, habsent, RecoveryTask.isAbsent]
    refine .goes hpasses (enqueue_lineUp hlined hidle) ?_
    cases hbatch : s.flusher.handedOff? with
    | none =>
      have hempty : lineUp s = [] := lineUp_of_absent habsent hbatch
      have hsame := (Settles.settle_eq (n := 0) (.rest hempty) (by decide)).symm.trans hsettle
      rw [hsame]
      exact hflushes.mono (by decide)
    | some batch =>
      have hwaits : s.callStep? clock .stop (.shutdown .awaitingFlush) = none := by
        simp [Sequencer.callStep?, Sequencer.shutdownStep?, hactive, hbatch]
      have hqueue : lineUp s ≠ [] := by
        rw [lineUp_of_handedOff hbatch]
        exact List.cons_ne_nil _ _
      exact .waits hwaits hqueue hsettle hflushes
  · obtain ⟨failures, hchecking⟩ := hrecovery.resolve_left habsent
    have hwaits : s.callStep? clock .stop (.shutdown (.awaitingRecovery s.recoveries)) = none := by
      simp [Sequencer.callStep?, Sequencer.shutdownStep?, hchecking, RecoveryTask.isAbsent]
    have hqueue : lineUp s ≠ [] := by simp [lineUp, hchecking, RecoveryTask.isAbsent]
    have hpasses : rested.callStep? clock .stop (.shutdown (.awaitingRecovery s.recoveries)) =
        some (.running (.shutdown .awaitingFlush), rested) := by
      simp [Sequencer.callStep?, Sequencer.shutdownStep?, rested, RecoveryTask.isAbsent]
    exact .waits hwaits hqueue hsettle (.goes hpasses (hquiet _) hflushes)

/-- A shutdown lands the batch that was handed off and then the pending one. -/
theorem perform_shutdown [LawfulBackend β] (hlined : Lined tasks) (hidle : s.IsIdle)
    (hactive : s.flusher.active = s.flusher.handedOff?.isSome) (hstatus : s.status ≠ .eventing)
    (hrecovery : s.recovery = .absent ∨ ∃ failures, s.recovery = .checking failures)
    (hunclaimed : s.recoveryUnclaimed = true) (hworker : s.flusher.workerUnclaimed = true) :
    ∃ after : Engine β σ, after.store = Checkpoint.landOn
        (Checkpoint.landOn store s.partition s.flusher.handedOff?) s.partition (lastBatch? s) ∧
      after.log = log ∧
      (single clock store log s tasks (lineUp s)).perform 0 (.shutdown .requesting) =
        (some .stopped, after) := by
  let requested : Sequencer := { s with isStopping := true }
  let claimed : Sequencer := { requested with recoveryUnclaimed := false }
  have hrequests : s.callStep? clock .stop (.shutdown .requesting) =
      some (.running (.shutdown .claimingRecovery), requested) := by
    simp [Sequencer.callStep?, Sequencer.shutdownStep?, hstatus, requested]
  have hclaims : requested.callStep? clock .stop (.shutdown .claimingRecovery) =
      some (.running (.shutdown (.awaitingRecovery s.recoveries)), claimed) := by
    simp [Sequencer.callStep?, Sequencer.shutdownStep?, hunclaimed, requested, claimed]
  have hidle' : requested.IsIdle ∧ claimed.IsIdle :=
    ⟨⟨hidle.worker, hidle.isOpen, hidle.isKept⟩, ⟨hidle.worker, hidle.isOpen, hidle.isKept⟩⟩
  obtain ⟨after, hstore, hlog, hawaits⟩ := carries_awaitingRecovery clock store log (s := claimed)
    hlined hidle'.2 hactive rfl hrecovery hworker
  refine ⟨after, hstore, hlog, Carries.perform_eq (n := 12) ?_ (by decide)⟩
  exact .goes hrequests (enqueue_lineUp hlined hidle'.1)
    (.goes hclaims (enqueue_lineUp hlined hidle'.2) hawaits)

end LogSequencing.Engine
