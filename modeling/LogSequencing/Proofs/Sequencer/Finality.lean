import LogSequencing.Proofs.Sequencer.Stopping

/-!
# After a shutdown

While no two shutdowns overlap, each of them waits for all that it has to end: the recovery task before
it drains the flusher, and the worker before the status becomes `finished` (`Sequencer.Stage`). So a
sequencer that is finished is not changed again, and nothing more is written
(`Sequencer.Session.run_finished`). Of shutdowns that overlap, only one waits for the recovery task,
which may then make a finished sequencer ready again (`Sequencer.Session.overlapping_ready`).
-/

set_option autoImplicit false
set_option relaxedAutoImplicit false

namespace LogSequencing

/-- Where a shutdown stands, if this is one that goes on. -/
def Progress.phase? : Progress → Option ShutdownPhase
  | running (.shutdown phase) => some phase
  | _ => none

/-- A list that is changed at one place. -/
theorem exists_set_eq {γ : Type} {l : List γ} {n : Nat} {a : γ} (h : l[n]? = some a) :
    ∃ before later, l = before ++ a :: later ∧ ∀ b, l.set n b = before ++ b :: later := by
  induction l generalizing n with
  | nil => nomatch h
  | cons x l ih =>
    cases n with
    | zero =>
      obtain rfl := Option.some.inj h
      exact ⟨[], l, rfl, fun _ ↦ rfl⟩
    | succ n =>
      obtain ⟨before, later, rfl, hset⟩ := ih h
      exact ⟨x :: before, later, rfl, fun b ↦ congrArg (x :: ·) (hset b)⟩

theorem Progress.phase?_eq_none {progress : Progress} (h : ¬ progress.IsStopping) :
    progress.phase? = none := by
  unfold phase?
  split
  · exact absurd trivial h
  · rfl

namespace Sequencer

/-- The recovery task has ended, or a shutdown ends it with its next step. -/
def Abandons (s : Sequencer) : Prop :=
  s.recovery = .absent ∨ s.isStopping = true ∧ ∃ failures, s.recovery = .checking failures

/-- What is known about the recovery task while a shutdown stands at a phase, or while none goes on. -/
def RecoveryClaim (s : Sequencer) : Option ShutdownPhase → Prop
  | none | some .requesting | some .claimingRecovery => s.recoveryUnclaimed = true ∨ s.Abandons
  | some (.awaitingRecovery number) => s.recoveries ≠ number → s.Abandons
  | some _ => s.Abandons

/-- What is known about the worker while a shutdown stands at a phase, or while none goes on. -/
def WorkerClaim (flusher : Flusher) : Option ShutdownPhase → Prop
  | some .awaitingWorker => True
  | some .finishing => flusher.worker = .gone
  | _ => flusher.workerUnclaimed = true ∨ flusher.worker = .gone

/-- What a shutdown at a phase has brought about, or the one that ended last if none goes on. -/
structure Stage (s : Sequencer) (phase? : Option ShutdownPhase) : Prop where
  isStopping : phase? = none ∨ phase? = some .requesting ∨ s.isStopping = true
  recovery : s.RecoveryClaim phase?
  worker : WorkerClaim s.flusher phase?
  finished : s.status = .finished →
    s.isStopping = true ∧ s.Abandons ∧ s.flusher.worker = .gone

variable {s after : Sequencer} {reply : Reply} {phase? : Option ShutdownPhase} {now : Nat}
  {preference : Preference} {progress : Progress}

theorem stage_create (partition : PartitionId) (config : Config) :
    (create partition config).Stage none :=
  ⟨Or.inl rfl, Or.inr (Or.inl rfl), Or.inl rfl, nofun⟩

theorem Abandons.recoveryClaim (h : s.Abandons) (phase? : Option ShutdownPhase) :
    s.RecoveryClaim phase? := by
  rcases phase? with _ | phase
  · exact Or.inr h
  · cases phase with
    | requesting | claimingRecovery => exact Or.inr h
    | awaitingRecovery number => exact fun _ ↦ h
    | _ => exact h

theorem RecoveryClaim.imp (h : s.RecoveryClaim phase?)
    (hunclaimed : after.recoveryUnclaimed = s.recoveryUnclaimed)
    (hrecoveries : after.recoveries = s.recoveries) (habandons : s.Abandons → after.Abandons) :
    after.RecoveryClaim phase? := by
  rcases phase? with _ | phase
  · exact h.imp hunclaimed.trans habandons
  · cases phase with
    | requesting | claimingRecovery => exact h.imp hunclaimed.trans habandons
    | awaitingRecovery number => exact fun hother ↦ habandons (h (hrecoveries ▸ hother))
    | _ => exact habandons h

/-! ### Callers -/

/-- A caller can do nothing to a finished sequencer. -/
theorem ClientMove.of_finished (h : ClientMove s reply after) (hfinished : s.status = .finished) :
    after = s := by
  cases h with
  | stay => rfl
  | reopen hother | take _ _ hother | finish hother => exact absurd hother (by simp [hfinished])

/-- Handing a batch off leaves the worker alone. -/
theorem handOff_keeps (flusher : Flusher) : flusher.handOff.2.worker = flusher.worker ∧
    flusher.handOff.2.workerUnclaimed = flusher.workerUnclaimed := by
  unfold Flusher.handOff
  split
  · exact ⟨rfl, rfl⟩
  · split
    · exact ⟨rfl, rfl⟩
    · split <;> exact ⟨rfl, rfl⟩

theorem collect_keeps (threshold : Nat) (flusher : Flusher) (event : FinishedEvent) :
    (flusher.collect threshold event).worker = flusher.worker ∧
      (flusher.collect threshold event).workerUnclaimed = flusher.workerUnclaimed := by
  unfold Flusher.collect
  dsimp only
  split_ifs
  · exact handOff_keeps _
  · exact ⟨rfl, rfl⟩

theorem tryHandOff_keeps (flusher : Flusher) : flusher.tryHandOff.2.worker = flusher.worker ∧
    flusher.tryHandOff.2.workerUnclaimed = flusher.workerUnclaimed := by
  unfold Flusher.tryHandOff
  split_ifs
  · exact ⟨rfl, rfl⟩
  · exact ⟨rfl, rfl⟩
  · exact handOff_keeps _

theorem WorkerClaim.of_keeps {flusher flusher' : Flusher} (h : WorkerClaim flusher phase?)
    (hkeeps : flusher'.worker = flusher.worker ∧
      flusher'.workerUnclaimed = flusher.workerUnclaimed) : WorkerClaim flusher' phase? := by
  unfold WorkerClaim at h ⊢
  rw [hkeeps.1, hkeeps.2]
  exact h

theorem Stage.client (h : s.Stage phase?) (hmove : ClientMove s reply after) :
    after.Stage phase? := by
  cases hmove with
  | stay => exact h
  | reopen =>
    refine ⟨h.isStopping, ?_, h.worker, nofun⟩
    rcases h.isStopping with rfl | rfl | hstopping
    · exact Or.inl rfl
    · exact Or.inl rfl
    · have habandons : s.startRecovery.Abandons := Or.inr ⟨hstopping, 0, rfl⟩
      exact habandons.recoveryClaim phase?
  | take workspace counters _ hafter =>
    refine ⟨h.isStopping, h.recovery, h.worker, fun hfinished ↦ ?_⟩
    rcases hafter with rfl | rfl <;> nomatch hfinished
  | finish => exact ⟨h.isStopping, h.recovery, h.worker.of_keeps (collect_keeps ..), nofun⟩

/-! ### The shutdown -/

theorem Stage.shutdownStep {phase : ShutdownPhase} (h : s.Stage (some phase))
    (hstep : s.shutdownStep? phase = some (progress, after)) : after.Stage progress.phase? := by
  obtain ⟨hstopping, hrecovery, hworker, hfinished⟩ := h
  have hgoing (hother : phase ≠ .requesting) : s.isStopping = true :=
    (hstopping.resolve_left nofun).resolve_left fun heq ↦ hother (Option.some.inj heq)
  cases shutdownMove_of_step hstep with
  | refuse => exact ⟨Or.inl rfl, hrecovery, hworker, hfinished⟩
  | request =>
    have habandons (habandons : s.Abandons) : Abandons { s with isStopping := true } :=
      habandons.imp_right fun hchecking ↦ ⟨rfl, hchecking.2⟩
    exact ⟨Or.inr (Or.inr rfl), hrecovery.imp_right habandons, hworker,
      fun hstatus ↦ ⟨rfl, habandons (hfinished hstatus).2.1, (hfinished hstatus).2.2⟩⟩
  | claim =>
    exact ⟨Or.inr (Or.inr (hgoing nofun)), fun hother ↦ absurd rfl hother, hworker, hfinished⟩
  | skip hclaimed =>
    exact ⟨Or.inr (Or.inr (hgoing nofun)), hrecovery.resolve_left hclaimed, hworker, hfinished⟩
  | outlast number hended =>
    exact ⟨Or.inr (Or.inr (hgoing nofun)), hended.elim Or.inl hrecovery, hworker, hfinished⟩
  | settle | retry | drain =>
    exact ⟨Or.inr (Or.inr (hgoing nofun)), hrecovery, hworker, hfinished⟩
  | handOff =>
    have hkeeps := tryHandOff_keeps s.flusher
    refine ⟨Or.inr (Or.inr (hgoing nofun)), hrecovery, hworker.of_keeps hkeeps, fun hstatus ↦ ?_⟩
    obtain ⟨hrequested, habandons, hgone⟩ := hfinished hstatus
    exact ⟨hrequested, habandons, hkeeps.1.trans hgone⟩
  | close => exact ⟨Or.inr (Or.inr (hgoing nofun)), hrecovery, trivial, hfinished⟩
  | closeClaimed hclaimed =>
    exact ⟨Or.inr (Or.inr (hgoing nofun)), hrecovery, hworker.resolve_left hclaimed, hfinished⟩
  | bury hgone => exact ⟨Or.inr (Or.inr (hgoing nofun)), hrecovery, hgone, hfinished⟩
  | finish =>
    exact ⟨Or.inl rfl, Or.inr hrecovery, Or.inr hworker, fun _ ↦ ⟨hgoing nofun, hrecovery, hworker⟩⟩

/-- A shutdown changes neither the counters nor a status that is `finished`. -/
theorem shutdownStep_finished {phase : ShutdownPhase} (hfinished : s.status = .finished)
    (hstep : s.shutdownStep? phase = some (progress, after)) :
    after.status = .finished ∧ after.counters = s.counters := by
  cases shutdownMove_of_step hstep with
  | finish => exact ⟨rfl, rfl⟩
  | _ => exact ⟨hfinished, rfl⟩

/-! ### The background -/

section

variable {β σ : Type} [Backend β] [LogSource σ] {store storeAfter : β} {log logAfter : σ}

/-- A recovery task that is abandoned ends, and does nothing else. -/
theorem Abandons.recoveryStep (h : s.Abandons)
    (hstep : s.recoveryStep? now preference store log = some (after, storeAfter, logAfter)) :
    after = { s with recovery := .absent } := by
  unfold recoveryStep? at hstep
  rcases h with habsent | ⟨hstopping, failures, hchecking⟩
  · rw [habsent] at hstep
    nomatch hstep
  · rw [hchecking] at hstep
    dsimp only at hstep
    rw [if_pos hstopping] at hstep
    exact (Prod.mk.inj (Option.some.inj hstep)).1.symm

theorem Stage.recoveryStep (h : s.Stage phase?)
    (hstep : s.recoveryStep? now preference store log = some (after, storeAfter, logAfter)) :
    after.Stage phase? := by
  have habandons (habandons : s.Abandons) : after.Abandons := by
    rw [habandons.recoveryStep hstep]
    exact Or.inl rfl
  have hbefore (hfinished : after.status = .finished) : s.status = .finished := by
    obtain ⟨recovery, counters, status, rfl, rfl | ⟨rfl, -⟩⟩ := recoveryStep_eq hstep
    · exact hfinished
    · nomatch hfinished
  have hfinished (hstatus : after.status = .finished) :
      s.isStopping = true ∧ after.Abandons ∧ s.flusher.worker = .gone := by
    obtain ⟨hstopping, hended, hgone⟩ := h.finished (hbefore hstatus)
    exact ⟨hstopping, habandons hended, hgone⟩
  obtain ⟨recovery, counters, status, rfl, -⟩ := recoveryStep_eq hstep
  exact ⟨h.isStopping, h.recovery.imp rfl rfl habandons, h.worker, hfinished⟩

omit [LogSource σ] in
/-- A step of the worker changes only the flusher, and is done by a worker that is there. -/
theorem workerStep_keeps {isHeld : Bool}
    (hstep : s.workerStep? now isHeld store = some (after, storeAfter)) :
    s.flusher.worker ≠ .gone ∧ ∃ flusher, after = { s with flusher } ∧
      flusher.workerUnclaimed = s.flusher.workerUnclaimed := by
  obtain ⟨⟨flusher, store⟩, hworks, heq⟩ := Option.map_eq_some_iff.mp hstep
  obtain ⟨rfl, -⟩ := Prod.mk.inj heq
  unfold Flusher.workerStep? at hworks
  cases hworker : s.flusher.worker with
  | gone =>
    rw [hworker] at hworks
    nomatch hworks
  | idle =>
    rw [hworker] at hworks
    dsimp only at hworks
    refine ⟨nofun, flusher, rfl, ?_⟩
    split at hworks
    · obtain ⟨rfl, -⟩ := Prod.mk.inj (Option.some.inj hworks)
      rfl
    · split_ifs at hworks
      obtain ⟨rfl, -⟩ := Prod.mk.inj (Option.some.inj hworks)
      rfl
  | writing batch failures =>
    rw [hworker] at hworks
    dsimp only at hworks
    refine ⟨nofun, flusher, rfl, ?_⟩
    split at hworks <;> obtain ⟨rfl, -⟩ := Prod.mk.inj (Option.some.inj hworks) <;> rfl
  | backingOff batch failures wake =>
    rw [hworker] at hworks
    dsimp only at hworks
    split_ifs at hworks
    obtain ⟨rfl, -⟩ := Prod.mk.inj (Option.some.inj hworks)
    exact ⟨nofun, _, rfl, rfl⟩
  | clearing =>
    rw [hworker] at hworks
    obtain ⟨rfl, -⟩ := Prod.mk.inj (Option.some.inj hworks)
    exact ⟨nofun, _, rfl, rfl⟩

omit [LogSource σ] in
theorem Stage.workerStep (h : s.Stage phase?) {isHeld : Bool}
    (hstep : s.workerStep? now isHeld store = some (after, storeAfter)) :
    after.Stage phase? ∧ s.status ≠ .finished := by
  obtain ⟨hthere, flusher, rfl, hunclaimed⟩ := workerStep_keeps hstep
  have hserving : s.status ≠ .finished := fun hfinished ↦ hthere (h.finished hfinished).2.2
  refine ⟨⟨h.isStopping, h.recovery, ?_, fun hfinished ↦ absurd hfinished hserving⟩, hserving⟩
  have hworker := h.worker
  unfold WorkerClaim at hworker ⊢
  split at hworker
  · exact trivial
  · exact absurd hworker hthere
  · exact Or.inl (hunclaimed.trans (hworker.resolve_right hthere))

end

/-! ### Runs -/

namespace Session

variable {β σ : Type} {session : Session β σ}

/-- Where the shutdowns that go on stand. -/
def phases (session : Session β σ) : List ShutdownPhase := session.calls.filterMap Progress.phase?

/-- At most one shutdown goes on, and it has ended all that it should have by now. -/
def IsOrderly (session : Session β σ) : Prop :=
  ∃ phase?, session.phases = phase?.toList ∧ session.sequencer.Stage phase?

theorem filterMap_phase? (before later : List Progress) (progress : Progress) :
    (before ++ progress :: later).filterMap Progress.phase? =
      before.filterMap Progress.phase? ++ progress.phase?.toList ++
        later.filterMap Progress.phase? := by
  rw [List.filterMap_append, List.filterMap_cons, List.append_assoc]
  cases progress.phase? <;> rfl

theorem phases_advance {number : Nat} {progress progress' : Progress}
    (hcall : session.calls[number]? = some progress) (hsame : progress'.phase? = progress.phase?) :
    (session.calls.set number progress').filterMap Progress.phase? = session.phases := by
  obtain ⟨before, later, hcalls, hset⟩ := exists_set_eq hcall
  rw [phases, hset, hcalls, filterMap_phase?, filterMap_phase?, hsame]

/-- A shutdown that goes on is the only one. -/
theorem phases_shutdown {number : Nat} {phase : ShutdownPhase} {phase? : Option ShutdownPhase}
    (hcall : session.calls[number]? = some (.running (.shutdown phase)))
    (hphases : session.phases = phase?.toList) :
    phase? = some phase ∧ ∀ progress : Progress,
      (session.calls.set number progress).filterMap Progress.phase? = progress.phase?.toList := by
  obtain ⟨before, later, hcalls, hset⟩ := exists_set_eq hcall
  rw [phases, hcalls, filterMap_phase?] at hphases
  cases phase? with
  | none => simp [Progress.phase?] at hphases
  | some other =>
    have hlength := congrArg List.length hphases
    simp only [List.length_append, Progress.phase?, Option.toList_some, List.length_singleton]
      at hlength
    have hbefore : before.filterMap Progress.phase? = [] :=
      List.eq_nil_of_length_eq_zero (by omega)
    have hlater : later.filterMap Progress.phase? = [] :=
      List.eq_nil_of_length_eq_zero (by omega)
    rw [hbefore, hlater] at hphases
    obtain rfl : phase = other := List.singleton_inj.mp hphases
    refine ⟨rfl, fun progress ↦ ?_⟩
    rw [hset, filterMap_phase?, hbefore, hlater, List.append_nil]
    rfl

theorem isOrderly_start (store : β) (log : σ) (partition : PartitionId) (config : Config) :
    (start store log partition config).IsOrderly :=
  ⟨none, rfl, stage_create partition config⟩

variable [Backend β] [LogSource σ] {action : Action β σ}

/-- What an action can do, be it that of a shutdown. -/
inductive Turn (session : Session β σ) (action : Action β σ) : Session β σ → Prop where
  | client {reply : Reply} {sequencer : Sequencer} (calls : List Progress)
      (hmove : ClientMove session.sequencer reply sequencer)
      (hphases : calls.filterMap Progress.phase? = session.phases) :
      Turn session action { session with sequencer, calls }
  | request (haction : action = .invoke .shutdown) :
      Turn session action
        { session with calls := session.calls ++ [.running (.shutdown .requesting)] }
  | shutdown {number : Nat} {phase : ShutdownPhase} {progress : Progress} {sequencer : Sequencer}
      (hcall : session.calls[number]? = some (.running (.shutdown phase)))
      (hstep : session.sequencer.shutdownStep? phase = some (progress, sequencer)) :
      Turn session action { session with sequencer, calls := session.calls.set number progress }
  | recovery {preference : Preference} {sequencer : Sequencer} {store storeRead : β} {log logRead : σ}
      (hstep : session.sequencer.recoveryStep? session.clock preference session.store session.log =
        some (sequencer, store, log)) :
      Turn session action { session with sequencer, store, log, storeRead, logRead }
  | work {sequencer : Sequencer} {store : β}
      (hstep : session.sequencer.workerStep? session.clock false session.store =
        some (sequencer, store)) :
      Turn session action { session with sequencer, store }
  | pass (clock : Nat) (store : β) (log : σ) : Turn session action { session with clock, store, log }

theorem turn_of_act (session : Session β σ) (action : Action β σ) :
    Turn session action (session.act action).2 := by
  have hstay : ClientMove session.sequencer .nothing session.sequencer := .stay not_false
  cases action with
  | recover => exact .client _ (recover_move _) rfl
  | takeId sequence => exact .client _ (nextId_move _ sequence) rfl
  | finish => exact .client _ (finishEvent_move _) rfl
  | cancel => exact .client _ (cancelEvent_move _) rfl
  | invoke newCall =>
    cases newCall with
    | shutdown => exact .request rfl
    | start | awaitReady =>
      exact .client _ hstay ((List.filterMap_append ..).trans (List.append_nil _))
  | advance number preference =>
    unfold act advance
    dsimp only
    split
    case h_1 call hcall =>
      cases hstep : session.sequencer.callStep? session.clock preference call with
      | none => exact .client _ hstay rfl
      | some result =>
        by_cases hstopping : (Progress.running call).IsStopping
        · cases call with
          | shutdown phase => exact .shutdown hcall hstep
          | _ => exact hstopping.elim
        · obtain ⟨hmove, hprogress⟩ := callStep_move hstopping hstep
          refine .client _ hmove (phases_advance hcall ?_)
          rw [Progress.phase?_eq_none hstopping, Progress.phase?_eq_none hprogress]
    case h_2 => exact .client _ hstay rfl
  | recovery preference =>
    unfold act recovery
    dsimp only
    cases hstep : session.sequencer.recoveryStep? session.clock preference session.store
      session.log with
    | none => exact .client _ hstay rfl
    | some result => exact .recovery hstep
  | work =>
    unfold act work
    dsimp only
    cases hstep : session.sequencer.workerStep? session.clock false session.store with
    | none => exact .client _ hstay rfl
    | some result => exact .work hstep
  | wait milliseconds => exact .pass _ _ _
  | exchange store log => exact .pass _ _ _

theorem IsOrderly.act (h : session.IsOrderly)
    (hturn : action = .invoke .shutdown → session.phases = []) :
    (session.act action).2.IsOrderly := by
  obtain ⟨phase?, hphases, hstage⟩ := h
  have hmoved := session.turn_of_act action
  generalize (session.act action).2 = after at hmoved ⊢
  cases hmoved with
  | client calls hmove hsame => exact ⟨phase?, hsame.trans hphases, hstage.client hmove⟩
  | request haction =>
    have hnone := hturn haction
    obtain rfl : phase? = none := by
      cases phase? with
      | none => rfl
      | some phase => exact absurd (hphases.symm.trans hnone) nofun
    refine ⟨some .requesting, ?_, Or.inr (Or.inl rfl), hstage.recovery, hstage.worker,
      hstage.finished⟩
    exact (List.filterMap_append ..).trans (congrArg (· ++ _) hnone)
  | shutdown hcall hstep =>
    obtain ⟨rfl, hset⟩ := phases_shutdown hcall hphases
    exact ⟨_, hset _, hstage.shutdownStep hstep⟩
  | recovery hstep => exact ⟨phase?, hphases, hstage.recoveryStep hstep⟩
  | work hstep => exact ⟨phase?, hphases, (hstage.workerStep hstep).1⟩
  | pass clock store log => exact ⟨phase?, hphases, hstage⟩

/-- Nothing is done to a finished sequencer, and its worker does nothing. -/
theorem IsOrderly.act_finished (h : session.IsOrderly)
    (hfinished : session.sequencer.status = .finished) (action : Action β σ) :
    (session.act action).2.sequencer.status = .finished ∧
      (session.act action).2.sequencer.counters = session.sequencer.counters ∧
      session.work = session := by
  obtain ⟨phase?, -, hstage⟩ := h
  have hidle : session.sequencer.workerStep? session.clock false session.store = none :=
    Option.eq_none_iff_forall_ne_some.mpr fun _ hstep ↦ (hstage.workerStep hstep).2 hfinished
  have hwork : session.work = session := by
    unfold Session.work
    rw [hidle]
  have hmoved := session.turn_of_act action
  generalize (session.act action).2 = after at hmoved ⊢
  cases hmoved with
  | client calls hmove =>
    obtain rfl := hmove.of_finished hfinished
    exact ⟨hfinished, rfl, hwork⟩
  | shutdown hcall hstep =>
    obtain ⟨hstatus, hcounters⟩ := shutdownStep_finished hfinished hstep
    exact ⟨hstatus, hcounters, hwork⟩
  | recovery hstep =>
    obtain rfl := (hstage.finished hfinished).2.1.recoveryStep hstep
    exact ⟨hfinished, rfl, hwork⟩
  | work hstep => exact absurd (hidle.symm.trans hstep) nofun
  | request | pass => exact ⟨hfinished, rfl, hwork⟩

/-- No shutdown is asked for while another one goes on. -/
def TakesTurns : Session β σ → List (Action β σ) → Prop
  | _, [] => True
  | session, action :: actions =>
    (action = .invoke .shutdown → session.phases = []) ∧ TakesTurns (session.act action).2 actions

theorem takesTurns_append {first later : List (Action β σ)} :
    session.TakesTurns (first ++ later) ↔
      session.TakesTurns first ∧ (session.run first).TakesTurns later := by
  induction first generalizing session with
  | nil => exact (and_iff_right trivial).symm
  | cons action first ih => exact (and_congr_right fun _ ↦ ih).trans and_assoc.symm

theorem IsOrderly.run (h : session.IsOrderly) {actions : List (Action β σ)}
    (hturns : session.TakesTurns actions) : (session.run actions).IsOrderly := by
  induction actions generalizing session with
  | nil => exact h
  | cons action actions ih => exact ih (h.act hturns.1) hturns.2

theorem IsOrderly.run_finished (h : session.IsOrderly)
    (hfinished : session.sequencer.status = .finished) {actions : List (Action β σ)}
    (hturns : session.TakesTurns actions) :
    (session.run actions).sequencer.status = .finished ∧
      (session.run actions).sequencer.counters = session.sequencer.counters ∧
      (session.run actions).work = session.run actions := by
  induction actions generalizing session with
  | nil => exact ⟨hfinished, rfl, (h.act_finished hfinished .work).2.2⟩
  | cons action actions ih =>
    obtain ⟨hstatus, hcounters, -⟩ := h.act_finished hfinished action
    obtain ⟨hafter, hsame, hwork⟩ := ih (h.act hturns.1) hstatus hturns.2
    exact ⟨hafter, hsame.trans hcounters, hwork⟩

/-- Whatever else interleaves, while no two shutdowns overlap, a sequencer that is finished stays so and
keeps its counters, and its worker does nothing any more. -/
theorem run_finished (store : β) (log : σ) (partition : PartitionId) (config : Config)
    {first later : List (Action β σ)}
    (hturns : (start store log partition config).TakesTurns (first ++ later))
    (hfinished :
      ((start store log partition config).run first).sequencer.status = .finished) :
    let before := (start store log partition config).run first
    let after := (start store log partition config).run (first ++ later)
    after.sequencer.status = .finished ∧ after.sequencer.counters = before.sequencer.counters ∧
      after.work = after := by
  obtain ⟨hfirst, hlater⟩ := takesTurns_append.mp hturns
  have horderly := (isOrderly_start store log partition config).run hfirst
  have hrun : (start store log partition config).run (first ++ later) =
      ((start store log partition config).run first).run later := List.foldl_append
  rw [hrun]
  exact horderly.run_finished hfinished hlater

/-- One shutdown claims the recovery task, which is about to read the checkpoint, and another one is
carried through meanwhile. -/
def overlapping : List (Action Rows MemoryLog) :=
  .recover :: List.replicate 3 (.recovery .progress) ++
    [.invoke .shutdown, .advance 0 .progress, .advance 0 .progress, .invoke .shutdown] ++
    List.replicate 6 (.advance 1 .progress) ++ [.work] ++ List.replicate 2 (.advance 1 .progress)

/-- Where shutdowns overlap, a sequencer that is finished becomes ready again. -/
theorem overlapping_ready :
    let session := (start (∅ : Rows) MemoryLog.empty ⟨1⟩ .default).run overlapping
    session.sequencer.status = .finished ∧
      (session.run (List.replicate 3 (.recovery .progress))).sequencer.status = .ready := by
  decide +kernel

end Session

end Sequencer

end LogSequencing
