import LogSequencing.Proofs.Sequencer.Finality

/-!
# Who waits for the recovery task and for the worker

A shutdown claims the recovery task and the worker and waits for them; one that finds them claimed
goes on. As long as such a task has not ended, it is therefore unclaimed or one of the shutdowns that
go on waits for it, however many of them overlap (`Sequencer.Attended`).
-/

set_option autoImplicit false
set_option relaxedAutoImplicit false

namespace LogSequencing

namespace Flusher

variable {flusher : Flusher}

/-! ### A flag that is up goes down -/

/-- While the flag is up, the worker has something to do before it rests. -/
structure Live (flusher : Flusher) : Prop extends Sound flusher where
  busy : flusher.active = true → flusher.carried ≠ [] ∨ flusher.worker = .clearing

theorem live_start : start.Live := { sound_start with busy := nofun }

theorem handOff_of_closed (hclosed : flusher.isOpen = false) :
    flusher.handOff = (.closed, { flusher with pending := .empty }) := by
  simp [handOff, hclosed]

theorem Live.handOff (h : flusher.Live) (hactive : flusher.active = false) :
    flusher.handOff.2.Live := by
  by_cases hopen : flusher.isOpen = true
  · rw [h.handOff_eq hopen hactive]
    refine { h.send hopen hactive with busy := fun _ ↦ Or.inl ?_ }
    rw [h.carried_send hactive]
    exact List.cons_ne_nil _ _
  · rw [handOff_of_closed (Bool.eq_false_iff.mpr hopen)]
    exact { h with }

theorem Live.collect (h : flusher.Live) (threshold : Nat) (event : FinishedEvent) :
    (flusher.collect threshold event).Live := by
  have hmerged : Live { flusher with pending := flusher.pending.merge event } := { h with }
  unfold Flusher.collect
  dsimp only
  split_ifs with hdue
  · exact hmerged.handOff (Bool.eq_false_iff.mpr hdue.2)
  · exact hmerged

theorem Live.tryHandOff (h : flusher.Live) : flusher.tryHandOff.2.Live := by
  unfold Flusher.tryHandOff
  split_ifs with hnothing hactive
  · exact h
  · exact h
  · exact h.handOff (Bool.eq_false_iff.mpr hactive)

section

variable {β : Type} [Backend β] {partition : PartitionId} {isStopping : Bool} {after : Flusher}
  {store left : β}

theorem WorkerMove.keeps_claim (h : WorkerMove partition isStopping flusher store after left) :
    flusher.worker ≠ .gone ∧ after.workerUnclaimed = flusher.workerUnclaimed := by
  cases h with
  | take _ hworker | leave hworker | land _ _ _ hworker | fail _ _ _ _ _ _ hworker
  | abandon _ _ _ _ _ hworker | retry _ _ _ hworker | lower hworker =>
    rw [hworker]
    exact ⟨nofun, rfl⟩

theorem WorkerMove.live (h : WorkerMove partition isStopping flusher store after left)
    (hlive : flusher.Live) : after.Live := by
  refine { h.sound hlive.toSound with busy := fun hactive ↦ ?_ }
  cases h with
  | take | fail | retry => exact Or.inl (List.cons_ne_nil _ _)
  | land | abandon => exact Or.inr rfl
  | lower => nomatch hactive
  | leave hworker hplace =>
    refine absurd (hlive.busy hactive) (not_or.mpr ⟨?_, ?_⟩)
    · simp [carried, hworker, hplace, Worker.inHand]
    · simp [hworker]

end

end Flusher

namespace Sequencer

variable {s after : Sequencer} {phase : ShutdownPhase} {progress : Progress}

/-! ### Up to the shutdown -/

/-- Unless the recovery task has ended, one of some shutdowns waits for it or the next one will, and
likewise for the worker. -/
structure Attended (s : Sequencer) (phases : List ShutdownPhase) : Prop where
  held : s.isDropped = false
  live : s.flusher.Live
  recovery : s.recoveryUnclaimed = true ∨ s.recovery = .absent ∨
    .awaitingRecovery s.recoveries ∈ phases
  worker : s.flusher.workerUnclaimed = true ∨ s.flusher.worker = .gone ∨ .awaitingWorker ∈ phases

variable {phases phases' : List ShutdownPhase} {reply : Reply}

theorem attended_create (partition : PartitionId) (config : Config) :
    (create partition config).Attended [] :=
  ⟨rfl, Flusher.live_start, Or.inr (Or.inl rfl), Or.inl rfl⟩

theorem Attended.client (h : s.Attended phases) (hmove : ClientMove s reply after) :
    after.Attended phases := by
  cases hmove with
  | stay => exact h
  | reopen => exact ⟨h.held, h.live, Or.inl rfl, h.worker⟩
  | take => exact ⟨h.held, h.live, h.recovery, h.worker⟩
  | finish =>
    obtain ⟨hworker, hunclaimed⟩ := collect_keeps s.config.flushThreshold.toNat s.flusher
      s.finishedEvent
    refine ⟨h.held, h.live.collect _ _, h.recovery, ?_⟩
    dsimp only
    rw [hworker, hunclaimed]
    exact h.worker

/-- Of the shutdowns only one has moved. -/
theorem Attended.shutdown (h : s.Attended phases) (hmove : ShutdownMove s phase progress after)
    (hothers : ∀ other ∈ phases, other = phase ∨ other ∈ phases')
    (hnew : ∀ phase', progress.phase? = some phase' → phase' ∈ phases') :
    after.Attended phases' := by
  have hrecovery (hphase : .awaitingRecovery s.recoveries ≠ phase) :
      s.recoveryUnclaimed = true ∨ s.recovery = .absent ∨
        .awaitingRecovery s.recoveries ∈ phases' :=
    h.recovery.imp_right (Or.imp_right fun hmem ↦ (hothers _ hmem).resolve_left hphase)
  have hworker (hphase : .awaitingWorker ≠ phase) : s.flusher.workerUnclaimed = true ∨
      s.flusher.worker = .gone ∨ .awaitingWorker ∈ phases' :=
    h.worker.imp_right (Or.imp_right fun hmem ↦ (hothers _ hmem).resolve_left hphase)
  cases hmove with
  | refuse | request | skip | settle | retry | drain | finish =>
    exact ⟨h.held, h.live, hrecovery nofun, hworker nofun⟩
  | claim => exact ⟨h.held, h.live, Or.inr (Or.inr (hnew _ rfl)), hworker nofun⟩
  | outlast number hended =>
    refine ⟨h.held, h.live, ?_, hworker nofun⟩
    rcases hended with habsent | hother
    · exact Or.inr (Or.inl habsent)
    · exact hrecovery fun heq ↦ hother (ShutdownPhase.awaitingRecovery.inj heq)
  | handOff =>
    obtain ⟨hkeeps, hunclaimed⟩ := tryHandOff_keeps s.flusher
    refine ⟨h.held, h.live.tryHandOff, hrecovery nofun, ?_⟩
    dsimp only
    rw [hkeeps, hunclaimed]
    exact hworker nofun
  | close =>
    exact ⟨h.held, { h.live with closed_of_gone := fun _ ↦ rfl }, hrecovery nofun,
      Or.inr (Or.inr (hnew _ rfl))⟩
  | closeClaimed hclaimed =>
    exact ⟨h.held, { h.live with closed_of_gone := fun _ ↦ rfl }, hrecovery nofun,
      Or.inr ((hworker nofun).resolve_left hclaimed)⟩
  | bury hgone => exact ⟨h.held, h.live, hrecovery nofun, Or.inr (Or.inl hgone)⟩

section

variable {β σ : Type} [Backend β] [LogSource σ] {store storeAfter : β} {log logAfter : σ}
  {now : Nat} {preference : Preference}

theorem Attended.recoveryStep (h : s.Attended phases)
    (hstep : s.recoveryStep? now preference store log = some (after, storeAfter, logAfter)) :
    after.Attended phases := by
  obtain ⟨recovery, counters, status, rfl, -⟩ := recoveryStep_eq hstep
  refine ⟨h.held, h.live, ?_, h.worker⟩
  rcases h.recovery with hunclaimed | habsent | hawaited
  · exact Or.inl hunclaimed
  · rw [recoveryStep?, habsent] at hstep
    nomatch hstep
  · exact Or.inr (Or.inr hawaited)

omit [LogSource σ] in
theorem Attended.workerStep (h : s.Attended phases)
    (hstep : s.workerStep? now false store = some (after, storeAfter)) : after.Attended phases := by
  obtain ⟨flusher, rfl, hmove⟩ := workerMove_of_held h.held hstep
  obtain ⟨hthere, hunclaimed⟩ := hmove.keeps_claim
  refine ⟨h.held, hmove.live h.live, h.recovery, ?_⟩
  rcases h.worker with hfree | hgone | hawaited
  · exact Or.inl (hunclaimed.trans hfree)
  · exact absurd hgone hthere
  · exact Or.inr (Or.inr hawaited)

end

namespace Session

variable {β σ : Type} {session : Session β σ} {number : Nat}

theorem mem_phases_set {other : ShutdownPhase}
    (hcall : session.calls[number]? = some (.running (.shutdown phase)))
    (hother : other ∈ session.phases) (progress : Progress) :
    other = phase ∨ other ∈ (session.calls.set number progress).filterMap Progress.phase? := by
  obtain ⟨before, later, hcalls, hset⟩ := exists_set_eq hcall
  rw [phases, hcalls, filterMap_phase?] at hother
  rw [hset, filterMap_phase?]
  rcases List.mem_append.mp hother with hmem | hmem
  · rcases List.mem_append.mp hmem with hmem | hmem
    · exact Or.inr (List.mem_append_left _ (List.mem_append_left _ hmem))
    · exact Or.inl (List.mem_singleton.mp hmem)
  · exact Or.inr (List.mem_append_right _ hmem)

theorem mem_phases_new (hcall : session.calls[number]? = some (.running (.shutdown phase)))
    {phase' : ShutdownPhase} (hnew : progress.phase? = some phase') :
    phase' ∈ (session.calls.set number progress).filterMap Progress.phase? := by
  obtain ⟨before, later, -, hset⟩ := exists_set_eq hcall
  rw [hset, filterMap_phase?, hnew]
  exact List.mem_append_left _ (List.mem_append_right _ (List.mem_singleton.mpr rfl))

section

variable [Backend β] [LogSource σ] {action : Action β σ}

theorem attended_act (h : session.sequencer.Attended session.phases) (action : Action β σ) :
    (session.act action).2.sequencer.Attended (session.act action).2.phases := by
  have hturn := session.turn_of_act action
  generalize (session.act action).2 = after at hturn ⊢
  cases hturn with
  | client calls hmove hphases =>
    rw [phases, hphases]
    exact h.client hmove
  | request haction =>
    rw [phases, List.filterMap_append]
    exact ⟨h.held, h.live, h.recovery.imp_right (Or.imp_right (List.mem_append_left _)),
      h.worker.imp_right (Or.imp_right (List.mem_append_left _))⟩
  | shutdown hcall hstep =>
    exact h.shutdown (shutdownMove_of_step hstep)
      (fun other hother ↦ mem_phases_set hcall hother _) fun phase' hnew ↦ mem_phases_new hcall hnew
  | recovery hstep => exact h.recoveryStep hstep
  | work hstep => exact h.workerStep hstep
  | pass => exact h

theorem attended_run (h : session.sequencer.Attended session.phases)
    (actions : List (Action β σ)) :
    (session.run actions).sequencer.Attended (session.run actions).phases := by
  induction actions generalizing session with
  | nil => exact h
  | cons action actions ih => exact ih (attended_act h action)

end

end Session

end Sequencer

end LogSequencing
