import LogSequencing.Proofs.Sequencer.Attendance

/-!
# A sequencer that is being shut down

What is known of the recovery task, the flusher and the worker while the only shutdown stands at a
phase after its request (`Sequencer.Departing`) is kept by every step. Each step uses up some of what
is still to be done: of the batches to write, the attempts to recover and the steps to take
(`Sequencer.Outlay`). The shutdown, the recovery task and the worker wait only for one another.
-/

set_option autoImplicit false
set_option relaxedAutoImplicit false

namespace LogSequencing

/-- The batch that the next step of the worker writes. -/
def Worker.writes : Worker → List Batch
  | writing batch _ => [batch]
  | _ => []

namespace RecoveryTask

instance : DecidablePred IsAttempting
  | clearing _ | readingCheckpoint _ | readingLog _ _ | installing _ => isTrue trivial
  | absent | checking _ | awaitingFlusher _ | backingOff _ _ => isFalse not_false

/-- The attempts that may still begin once a shutdown has been requested. -/
def outstanding : RecoveryTask → Nat
  | awaitingFlusher _ => 1
  | _ => 0

/-- A bound on the steps that the task takes once a shutdown has been requested. -/
def weight : RecoveryTask → Nat
  | absent => 0
  | checking _ | installing _ => 1
  | backingOff _ _ => 2
  | readingLog _ _ => 3
  | readingCheckpoint _ => 4
  | clearing _ => 5
  | awaitingFlusher _ => 6

theorem outstanding_le (task : RecoveryTask) : task.outstanding ≤ 1 := by
  cases task <;> simp [outstanding]

theorem weight_le (task : RecoveryTask) : task.weight ≤ 6 := by
  cases task <;> simp [weight]

/-- What a step makes of the task once a shutdown has been requested. -/
inductive StopMove : RecoveryTask → RecoveryTask → Prop where
  | stop (failures : Nat) : StopMove (checking failures) absent
  | leave (failures : Nat) : StopMove (awaitingFlusher failures) (checking failures)
  | attempt (failures : Nat) : StopMove (awaitingFlusher failures) (clearing failures)
  | clear (failures : Nat) : StopMove (clearing failures) (readingCheckpoint failures)
  | read (failures : Nat) (checkpoint : Counters) :
      StopMove (readingCheckpoint failures) (readingLog failures checkpoint)
  | rebuild (failures : Nat) (checkpoint counters : Counters) :
      StopMove (readingLog failures checkpoint) (installing counters)
  | failCheckpoint (failures wake : Nat) :
      StopMove (readingCheckpoint failures) (backingOff (failures + 1) wake)
  | failLog (failures wake : Nat) (checkpoint : Counters) :
      StopMove (readingLog failures checkpoint) (backingOff (failures + 1) wake)
  | wake (failures wake : Nat) : StopMove (backingOff failures wake) (checking failures)
  | install (counters : Counters) : StopMove (installing counters) absent

variable {task task' : RecoveryTask}

theorem StopMove.weight_lt (h : StopMove task task') : task'.weight < task.weight := by
  cases h <;> simp [weight]

/-- An attempt begins at most once. -/
theorem StopMove.outstanding_le (h : StopMove task task') :
    (if ¬ task.IsAttempting ∧ task'.IsAttempting then 1 else 0) + task'.outstanding ≤
      task.outstanding := by
  cases h <;> simp [IsAttempting, outstanding]

end RecoveryTask

namespace Flusher

variable {flusher : Flusher}

theorem Sound.length_carried_le (h : flusher.Sound) : flusher.carried.length ≤ 1 := by
  by_cases hplace : flusher.handedOff? = none
  · rw [carried, hplace]
    cases flusher.worker <;> simp [Worker.inHand]
  · rw [carried, h.idle_of_handedOff hplace]
    cases flusher.handedOff? <;> simp [Worker.inHand]

/-- What is handed off is carried, unless there is nothing or the flusher is closed. -/
theorem Sound.carried_tryHandOff (h : flusher.Sound) (hactive : flusher.active = false) :
    flusher.tryHandOff.2.carried.Sublist [flusher.pending] := by
  unfold Flusher.tryHandOff
  rw [if_neg (Bool.eq_false_iff.mp hactive)]
  split_ifs with hnothing
  · rw [h.carried_eq_nil hactive]
    exact List.nil_sublist _
  · dsimp only
    by_cases hopen : flusher.isOpen = true
    · rw [h.handOff_eq hopen hactive]
      exact (h.carried_send hactive flusher.pending) ▸ List.Sublist.refl _
    · rw [handOff_of_closed (Bool.eq_false_iff.mpr hopen)]
      have hnil : carried { flusher with pending := .empty } = [] := h.carried_eq_nil hactive
      rw [hnil]
      exact List.nil_sublist _

/-- The batches that may still be written while a shutdown stands at a phase. -/
def due (flusher : Flusher) : Option ShutdownPhase → List Batch
  | none | some .draining | some .closing | some .awaitingWorker | some .finishing =>
    flusher.carried
  | some _ => flusher.carried ++ [flusher.pending]

/-- A bound on the steps that the worker takes once a shutdown has been requested, unless a batch is
handed off. -/
def weight (flusher : Flusher) : Nat :=
  match flusher.worker with
  | .gone => 0
  | .idle => if flusher.handedOff?.isSome then 4 else 1
  | .clearing => 2
  | .writing _ _ => 3
  | .backingOff _ _ _ => 4

theorem weight_le (flusher : Flusher) : flusher.weight ≤ 4 := by
  unfold weight
  split
  case h_2 => split_ifs <;> decide
  all_goals decide

/-- The worker is to do no more than to take one more batch, write it and clear the flag. -/
theorem weight_tryHandOff_le (flusher : Flusher) :
    flusher.tryHandOff.2.weight ≤ flusher.weight + 3 := by
  have hworker := (Sequencer.tryHandOff_keeps flusher).1
  unfold weight
  rw [hworker]
  split
  case h_2 => split_ifs <;> decide
  all_goals exact Nat.le_add_right _ _

section

variable {β : Type} [Backend β] {partition : PartitionId} {after : Flusher} {store left : β}

/-- What the worker writes is no longer carried, whether the write succeeds or fails. -/
theorem WorkerMove.carried_eq (h : WorkerMove partition true flusher store after left) :
    flusher.worker.writes ++ after.carried = flusher.carried := by
  cases h with
  | fail _ _ _ _ _ hgoing => nomatch hgoing
  | take _ hworker hplace | leave hworker hplace =>
    simp [carried, hworker, hplace, Worker.inHand, Worker.writes]
  | land _ _ _ hworker | abandon _ _ _ _ _ hworker | retry _ _ _ hworker | lower hworker =>
    simp [carried, hworker, Worker.inHand, Worker.writes]

theorem WorkerMove.weight_lt (h : WorkerMove partition true flusher store after left)
    (hsound : flusher.Sound) : after.weight < flusher.weight := by
  cases h with
  | fail _ _ _ _ _ hgoing => nomatch hgoing
  | take _ hworker hplace | leave hworker hplace => simp [weight, hworker, hplace]
  | land _ _ _ hworker | abandon _ _ _ _ _ hworker | retry _ _ _ hworker =>
    simp [weight, hworker]
  | lower hworker =>
    simp [weight, hworker, hsound.nothing_handedOff (by simp [hworker])]

theorem WorkerMove.rests {isStopping : Bool}
    (h : WorkerMove partition isStopping flusher store after left)
    (hactive : flusher.active = false) : after.active = false := by
  cases h with
  | lower => rfl
  | _ => exact hactive

end

end Flusher

namespace Sequencer

variable {s after : Sequencer} {phase : ShutdownPhase} {phase? : Option ShutdownPhase}
  {progress : Progress}

/-! ### After the request -/

/-- The recovery task while the only shutdown stands at a phase after the request, or has ended. -/
def RecoveryAt (s : Sequencer) : Option ShutdownPhase → Prop
  | some .requesting => False
  | some .claimingRecovery => s.recoveryUnclaimed = true ∨ s.recovery = .absent
  | some (.awaitingRecovery number) => s.recoveries = number
  | _ => s.recovery = .absent

/-- The worker while the only shutdown stands at a phase after the request, or has ended. -/
def WorkerAt (flusher : Flusher) : Option ShutdownPhase → Prop
  | some .awaitingWorker => flusher.isOpen = false
  | some .finishing | none => flusher.worker = .gone
  | _ => flusher.workerUnclaimed = true ∨ flusher.worker = .gone

/-- What the only shutdown waits for has been brought about when it stops waiting. -/
structure Departing (s : Sequencer) (phase? : Option ShutdownPhase) : Prop where
  isStopping : s.isStopping = true
  held : s.isDropped = false
  live : s.flusher.Live
  recovery : s.RecoveryAt phase?
  /-- Nobody but the shutdown raises the flag. -/
  resting : phase? = some .handingOff → s.flusher.active = false
  worker : WorkerAt s.flusher phase?
  finished : phase? = none → s.status = .finished

/-- How far a shutdown has come that stands at a phase or has ended. -/
def standing : Option ShutdownPhase → Progress
  | some phase => .running (.shutdown phase)
  | none => .ended .stopped

/-! ### What is still to be done -/

/-- A bound on the steps that the shutdown takes after the request. -/
def phaseWeight : Option ShutdownPhase → Nat
  | none | some .requesting => 0
  | some .finishing => 1
  | some .awaitingWorker => 2
  | some .closing => 3
  | some .draining => 4
  | some .handingOff => 8
  | some .awaitingFlush => 9
  | some (.awaitingRecovery _) => 10
  | some .claimingRecovery => 11

def weight (s : Sequencer) (phase? : Option ShutdownPhase) : Nat :=
  phaseWeight phase? + s.flusher.weight + s.recovery.weight

/-- What the steps that lead from one state to another have used of what was to be done. -/
structure Outlay {α : Type} (s : Sequencer) (phase? : Option ShutdownPhase) (written : List Batch)
    (begun moved : List α) (after : Sequencer) (phase'? : Option ShutdownPhase) : Prop where
  written : (written ++ after.flusher.due phase'?).Sublist (s.flusher.due phase?)
  begun : begun.length + after.recovery.outstanding ≤ s.recovery.outstanding
  moved : moved.length + after.weight phase'? ≤ s.weight phase?

section

variable {α : Type} {last : Sequencer} {phase'? phase''? : Option ShutdownPhase}
  {written written' : List Batch} {begun begun' moved moved' : List α}

theorem Outlay.refl (s : Sequencer) (phase? : Option ShutdownPhase) :
    Outlay s phase? [] ([] : List α) [] s phase? :=
  ⟨List.Sublist.refl _, (Nat.zero_add _).le, (Nat.zero_add _).le⟩

theorem Outlay.trans (h : Outlay s phase? written begun moved after phase'?)
    (h' : Outlay after phase'? written' begun' moved' last phase''?) :
    Outlay s phase? (written ++ written') (begun ++ begun') (moved ++ moved') last phase''? where
  written := by
    rw [List.append_assoc]
    exact (h'.written.append_left written).trans h.written
  begun := by
    have hfirst := h.begun
    have hlater := h'.begun
    rw [List.length_append]
    omega
  moved := by
    have hfirst := h.moved
    have hlater := h'.moved
    rw [List.length_append]
    omega

/-- A shutdown that goes on leaves the recovery task alone. -/
theorem outlay_of_recovery_eq (action : α) (hrecovery : after.recovery = s.recovery)
    (hdue : (after.flusher.due phase'?).Sublist (s.flusher.due phase?))
    (hweight : phaseWeight phase'? + after.flusher.weight < phaseWeight phase? + s.flusher.weight) :
    Outlay s phase? [] ([] : List α) [action] after phase'? where
  written := hdue
  begun := (Nat.zero_add _).trans_le (hrecovery ▸ le_rfl)
  moved := by
    rw [weight, weight, hrecovery, List.length_singleton]
    omega

theorem Departing.shutdown (h : s.Departing (some phase))
    (hmove : ShutdownMove s phase progress after) (action : α) :
    ∃ phase'?, progress = standing phase'? ∧ after.Departing phase'? ∧
      Outlay s (some phase) [] ([] : List α) [action] after phase'? := by
  cases hmove with
  | refuse | request => exact h.recovery.elim
  | claim hunclaimed =>
    refine ⟨some (.awaitingRecovery s.recoveries), rfl, { h with
      recovery := rfl, resting := nofun, finished := nofun }, ?_⟩
    exact outlay_of_recovery_eq action rfl (List.Sublist.refl _) (by simp [phaseWeight])
  | skip hclaimed =>
    refine ⟨some .awaitingFlush, rfl, { h with
      recovery := h.recovery.resolve_left hclaimed, resting := nofun, finished := nofun }, ?_⟩
    exact outlay_of_recovery_eq action rfl (List.Sublist.refl _) (by simp [phaseWeight])
  | outlast number hended =>
    refine ⟨some .awaitingFlush, rfl, { h with
      recovery := hended.resolve_right fun hother ↦ hother h.recovery
      resting := nofun
      finished := nofun }, ?_⟩
    exact outlay_of_recovery_eq action rfl (List.Sublist.refl _) (by simp [phaseWeight])
  | settle hdown =>
    refine ⟨some .handingOff, rfl, { h with resting := fun _ ↦ hdown, finished := nofun }, ?_⟩
    exact outlay_of_recovery_eq action rfl (List.Sublist.refl _) (by simp [phaseWeight])
  | retry hactive => exact absurd hactive (by simp [h.resting rfl])
  | handOff =>
    have hdown := h.resting rfl
    obtain ⟨hkeeps, hunclaimed⟩ := tryHandOff_keeps s.flusher
    refine ⟨some .draining, rfl, { h with
      live := h.live.tryHandOff
      worker := h.worker.imp hunclaimed.trans hkeeps.trans
      resting := nofun
      finished := nofun }, ?_⟩
    refine outlay_of_recovery_eq action rfl ?_ ?_
    -- what was pending is carried now, and the worker has that to do which the phase allowed for
    · exact (h.live.carried_tryHandOff hdown).trans (List.sublist_append_right _ _)
    · have hweight := Flusher.weight_tryHandOff_le s.flusher
      simp only [phaseWeight]
      omega
  | drain hdown =>
    refine ⟨some .closing, rfl, { h with resting := nofun, finished := nofun }, ?_⟩
    exact outlay_of_recovery_eq action rfl (List.Sublist.refl _) (by simp [phaseWeight])
  | close hunclaimed =>
    refine ⟨some .awaitingWorker, rfl, { h with
      live := { h.live with closed_of_gone := fun _ ↦ rfl }
      worker := rfl
      resting := nofun
      finished := nofun }, ?_⟩
    exact outlay_of_recovery_eq action rfl (List.Sublist.refl _)
      (Nat.add_lt_add_right (by decide) s.flusher.weight)
  | closeClaimed hclaimed =>
    refine ⟨some .finishing, rfl, { h with
      live := { h.live with closed_of_gone := fun _ ↦ rfl }
      worker := h.worker.resolve_left hclaimed
      resting := nofun
      finished := nofun }, ?_⟩
    exact outlay_of_recovery_eq action rfl (List.Sublist.refl _)
      (Nat.add_lt_add_right (by decide) s.flusher.weight)
  | bury hgone =>
    refine ⟨some .finishing, rfl, { h with
      worker := hgone, resting := nofun, finished := nofun }, ?_⟩
    exact outlay_of_recovery_eq action rfl (List.Sublist.refl _) (by simp [phaseWeight])
  | finish =>
    refine ⟨none, rfl, { h with resting := nofun, finished := fun _ ↦ rfl }, ?_⟩
    exact outlay_of_recovery_eq action rfl (List.Sublist.refl _) (by simp [phaseWeight])

end

section

variable {β σ : Type} [Backend β] [LogSource σ] {store storeAfter : β} {log logAfter : σ}
  {now : Nat} {preference : Preference}

theorem stopMove_of_recoveryStep (hstopping : s.isStopping = true)
    (hstep : s.recoveryStep? now preference store log = some (after, storeAfter, logAfter)) :
    RecoveryTask.StopMove s.recovery after.recovery := by
  unfold recoveryStep? at hstep
  cases hrecovery : s.recovery with
  | absent =>
    rw [hrecovery] at hstep
    nomatch hstep
  | checking failures =>
    rw [hrecovery] at hstep
    dsimp only at hstep
    rw [if_pos hstopping] at hstep
    obtain ⟨rfl, -⟩ := Prod.mk.inj (Option.some.inj hstep)
    exact .stop failures
  | awaitingFlusher failures =>
    rw [hrecovery] at hstep
    obtain ⟨waited, hleave, heq⟩ := Option.map_eq_some_iff.mp hstep
    obtain ⟨rfl, -⟩ := Prod.mk.inj heq
    unfold leaveWait? at hleave
    dsimp only at hleave
    rw [hstopping] at hleave
    split at hleave
    case h_1 | h_2 => contradiction
    case h_3 | h_5 =>
      obtain rfl := Option.some.inj hleave
      exact .leave failures
    case h_4 =>
      obtain rfl := Option.some.inj hleave
      exact .attempt failures
  | clearing failures =>
    rw [hrecovery] at hstep
    obtain ⟨rfl, -⟩ := Prod.mk.inj (Option.some.inj hstep)
    exact .clear failures
  | readingCheckpoint failures =>
    rw [hrecovery] at hstep
    dsimp only at hstep
    split at hstep <;> obtain ⟨rfl, -⟩ := Prod.mk.inj (Option.some.inj hstep)
    · exact .failCheckpoint failures _
    · exact .read failures _
  | readingLog failures checkpoint =>
    rw [hrecovery] at hstep
    dsimp only at hstep
    split at hstep <;> obtain ⟨rfl, -⟩ := Prod.mk.inj (Option.some.inj hstep)
    · exact .failLog failures _ checkpoint
    · exact .rebuild failures checkpoint _
  | installing counters =>
    rw [hrecovery] at hstep
    obtain ⟨rfl, -⟩ := Prod.mk.inj (Option.some.inj hstep)
    exact .install counters
  | backingOff failures wake =>
    rw [hrecovery] at hstep
    dsimp only at hstep
    rw [if_pos (Or.inr hstopping)] at hstep
    obtain ⟨rfl, -⟩ := Prod.mk.inj (Option.some.inj hstep)
    exact .wake failures wake

/-- Once a shutdown has been requested, the recovery task waits for nothing. -/
theorem recoveryStep_ne_none (hstopping : s.isStopping = true) (hthere : s.recovery ≠ .absent) :
    s.recoveryStep? now preference store log ≠ none := by
  unfold recoveryStep?
  cases hrecovery : s.recovery with
  | absent => exact absurd hrecovery hthere
  | awaitingFlusher failures =>
    dsimp only
    unfold leaveWait?
    rw [hstopping]
    cases s.flusher.active <;> cases preference <;> nofun
  | readingCheckpoint failures =>
    dsimp only
    split <;> nofun
  | readingLog failures checkpoint =>
    dsimp only
    split <;> nofun
  | backingOff failures wake =>
    dsimp only
    rw [if_pos (Or.inr hstopping)]
    nofun
  | checking | clearing | installing => nofun

theorem Departing.recoveryStep {α : Type} (h : s.Departing phase?) (action : α)
    (hstep : s.recoveryStep? now preference store log = some (after, storeAfter, logAfter)) :
    after.Departing phase? ∧ Outlay s phase? []
      (if ¬ s.recovery.IsAttempting ∧ after.recovery.IsAttempting then [action] else [])
      [action] after phase? := by
  have hmove := stopMove_of_recoveryStep h.isStopping hstep
  have hthere : s.recovery ≠ .absent := by
    intro habsent
    rw [habsent] at hmove
    nomatch hmove
  have houtstanding := hmove.outstanding_le
  obtain ⟨recovery, counters, status, rfl, -⟩ := recoveryStep_eq hstep
  have hweight : recovery.weight < s.recovery.weight := hmove.weight_lt
  have hrecovery := h.recovery
  refine ⟨{ h with recovery := ?_, finished := ?_ }, List.Sublist.refl _, ?_, ?_⟩
  · unfold RecoveryAt at hrecovery ⊢
    split at hrecovery
    · exact hrecovery
    · exact Or.inl (hrecovery.resolve_right hthere)
    · exact hrecovery
    · exact absurd hrecovery hthere
  · rintro rfl
    exact absurd hrecovery hthere
  · refine Nat.le_trans (Nat.add_le_add_right ?_ _) houtstanding
    split_ifs <;> exact Nat.le_refl _
  · simp only [weight, List.length_singleton]
    omega

omit [LogSource σ] in
theorem Departing.workerStep {α : Type} (h : s.Departing phase?) (action : α)
    (hstep : s.workerStep? now false store = some (after, storeAfter)) :
    after.Departing phase? ∧
      Outlay s phase? s.flusher.worker.writes ([] : List α) [action] after phase? := by
  obtain ⟨flusher, rfl, hmove⟩ := workerMove_of_held h.held hstep
  rw [h.isStopping] at hmove
  obtain ⟨hthere, hunclaimed⟩ := hmove.keeps_claim
  obtain ⟨hpending, hopen⟩ := hmove.keeps
  have hweight : flusher.weight < s.flusher.weight := hmove.weight_lt h.live.toSound
  have hcarried := hmove.carried_eq
  have hworker := h.worker
  refine ⟨{ h with live := hmove.live h.live, resting := ?_, worker := ?_ }, ?_,
    (Nat.zero_add _).le, ?_⟩
  · intro hphase
    exact hmove.rests (h.resting hphase)
  · unfold WorkerAt at hworker ⊢
    split at hworker
    · exact hopen.trans hworker
    · exact absurd hworker hthere
    · exact absurd hworker hthere
    · exact Or.inl (hunclaimed.trans (hworker.resolve_right hthere))
  · unfold Flusher.due
    split
    case h_6 => rw [← List.append_assoc, hcarried, hpending]
    all_goals exact hcarried ▸ List.Sublist.refl _
  · simp only [weight, List.length_singleton]
    omega

omit [LogSource σ] in
/-- Once a shutdown has been requested, the worker waits for nothing but a batch or the end. -/
theorem Departing.of_workerStep_eq_none (h : s.Departing phase?)
    (hstep : s.workerStep? now false store = none) :
    s.flusher.active = false ∧ (s.flusher.isOpen = false → s.flusher.worker = .gone) := by
  have hwaits := Option.map_eq_none_iff.mp hstep
  unfold Flusher.workerStep? at hwaits
  have hidle (hbusy : s.flusher.carried ≠ [] ∨ s.flusher.worker = .clearing → False) :
      s.flusher.active = false := Bool.eq_false_iff.mpr fun hactive ↦ hbusy (h.live.busy hactive)
  cases hworker : s.flusher.worker with
  | gone =>
    have hnone := h.live.nothing_handedOff (by simp [hworker])
    exact ⟨hidle (by simp [Flusher.carried, hworker, hnone, Worker.inHand]), fun _ ↦ rfl⟩
  | idle =>
    rw [hworker] at hwaits
    dsimp only at hwaits
    cases hplace : s.flusher.handedOff? with
    | some batch =>
      rw [hplace] at hwaits
      cases hwaits
    | none =>
      rw [hplace] at hwaits
      dsimp only at hwaits
      split_ifs at hwaits with hleaves
      refine ⟨hidle (by simp [Flusher.carried, hworker, hplace, Worker.inHand]), fun hclosed ↦ ?_⟩
      exact absurd (Or.inl (Bool.eq_false_iff.mp hclosed)) hleaves
  | writing batch failures =>
    rw [hworker] at hwaits
    dsimp only at hwaits
    split at hwaits <;> cases hwaits
  | backingOff batch failures wake =>
    rw [hworker] at hwaits
    dsimp only at hwaits
    rw [if_pos (Or.inr (Or.inl h.isStopping))] at hwaits
    cases hwaits
  | clearing =>
    rw [hworker] at hwaits
    cases hwaits

omit [Backend β] [LogSource σ] in
/-- The shutdown waits only for the recovery task and for the worker. -/
theorem Departing.shutdownStep_ne_none (h : s.Departing (some phase))
    (hrecovery : s.recovery = .absent) (hdown : s.flusher.active = false)
    (hclosed : s.flusher.isOpen = false → s.flusher.worker = .gone) :
    s.shutdownStep? phase ≠ none := by
  cases phase with
  | requesting => exact h.recovery.elim
  | claimingRecovery =>
    unfold shutdownStep?
    dsimp only
    split_ifs <;> nofun
  | awaitingRecovery number =>
    unfold shutdownStep?
    dsimp only
    rw [if_pos (Or.inl ((RecoveryTask.isAbsent_iff _).mpr hrecovery))]
    nofun
  | awaitingFlush | draining =>
    unfold shutdownStep?
    dsimp only
    rw [if_neg (Bool.eq_false_iff.mp hdown)]
    nofun
  | handingOff | closing | finishing => nofun
  | awaitingWorker =>
    unfold shutdownStep?
    dsimp only
    rw [if_pos (hclosed h.worker)]
    nofun

end

end Sequencer

end LogSequencing
