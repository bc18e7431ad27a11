import LogSequencing.Proofs.Sequencer.Departure

/-!
# A shutdown gets through

A shutdown, the recovery task and the worker wait for one another: the shutdown for the recovery
task, for the flag of the flusher and for the worker, the recovery task for the flag, and the worker
for the shutdown to close the flusher. None of them waits for the store or the log to recover, since
each gives up once the shutdown has been requested. So whatever reads and writes fail, they take a
bounded number of steps, and they all wait only when they are all through
(`Sequencer.Session.run_shutdown`).
-/

set_option autoImplicit false
set_option relaxedAutoImplicit false

namespace LogSequencing

def Progress.IsEnded : Progress → Prop
  | ended _ => True
  | running _ => False

instance : DecidablePred Progress.IsEnded
  | .ended _ => isTrue trivial
  | .running _ => isFalse not_false

namespace Sequencer

variable {phase? : Option ShutdownPhase}

namespace Session

variable {β σ : Type} {session : Session β σ}

/-- No client asks for anything. -/
def Action.IsInternal : Action β σ → Prop
  | .advance _ _ | .recovery _ | .work | .wait _ | .exchange _ _ => True
  | _ => False

instance (action : Action β σ) : Decidable action.IsInternal :=
  match action with
  | .advance _ _ | .recovery _ | .work | .wait _ | .exchange _ _ => isTrue trivial
  | .recover | .invoke _ | .takeId _ | .finish | .cancel => isFalse not_false

/-- The shutdown of that number has got through, and nothing is left in the background. -/
structure IsThrough (session : Session β σ) (number : Nat) : Prop where
  call : session.calls[number]? = some (.ended .stopped)
  status : session.sequencer.status = .finished
  recovery : session.sequencer.recovery = .absent
  worker : session.sequencer.flusher.worker = .gone

/-- All calls have ended but a shutdown, which stands at a phase after the request or has ended. -/
structure Leaving (session : Session β σ) (ended : List Progress)
    (phase? : Option ShutdownPhase) : Prop where
  calls : session.calls = ended ++ [standing phase?]
  ended : ∀ call ∈ ended, call.IsEnded
  departing : session.sequencer.Departing phase?

section

variable [Backend β] [LogSource σ] {action : Action β σ} {ended : List Progress}

/-- The sequencer has been created, and callers and the background have done what they like. -/
def IsReachable (session : Session β σ) : Prop :=
  ∃ store log partition config actions, session = (start store log partition config).run actions

/-- The action is a step of a call, of the recovery task or of the worker, and it need not wait. -/
def moves (session : Session β σ) : Action β σ → Bool
  | .advance number preference =>
    match session.calls[number]? with
    | some (.running call) =>
      (session.sequencer.callStep? session.clock preference call).isSome
    | _ => false
  | .recovery preference =>
    (session.sequencer.recoveryStep? session.clock preference session.store session.log).isSome
  | .work => (session.sequencer.workerStep? session.clock false session.store).isSome
  | _ => false

/-- The batch that an action puts into the store, or fails to, if it tries to put one there. -/
def written (session : Session β σ) : Action β σ → List Batch
  | .work => session.sequencer.flusher.worker.writes
  | _ => []

/-- The action, if it begins an attempt to recover. -/
def begun (session : Session β σ) (action : Action β σ) : List (Action β σ) :=
  if ¬ session.sequencer.recovery.IsAttempting ∧
    (session.act action).2.sequencer.recovery.IsAttempting then [action] else []

def moved (session : Session β σ) (action : Action β σ) : List (Action β σ) :=
  if session.moves action then [action] else []

/-- What the actions of a run give, one after another. -/
def trace {γ : Type} (gives : Session β σ → Action β σ → List γ) :
    Session β σ → List (Action β σ) → List γ
  | _, [] => []
  | session, action :: actions =>
    gives session action ++ trace gives (session.act action).2 actions

/-- What has been used up when an action of a run has been taken. -/
abbrev Uses (session : Session β σ) (action : Action β σ) (phase? phase'? : Option ShutdownPhase) :
    Prop :=
  Outlay session.sequencer phase? (session.written action) (session.begun action)
    (session.moved action) (session.act action).2.sequencer phase'?

theorem begun_eq_nil
    (hsame : (session.act action).2.sequencer.recovery = session.sequencer.recovery) :
    session.begun action = [] := by
  rw [begun, hsame]
  exact if_neg fun hboth ↦ hboth.1 hboth.2

theorem moved_eq (hmoves : session.moves action = true) : session.moved action = [action] := by
  rw [moved, hmoves]
  rfl

theorem uses_nothing (hsame : (session.act action).2.sequencer = session.sequencer)
    (hwritten : session.written action = []) (hmoves : session.moves action = false) :
    session.Uses action phase? phase? := by
  have hmoved : session.moved action = [] := by
    rw [moved, hmoves]
    rfl
  rw [Uses, hwritten, begun_eq_nil (congrArg Sequencer.recovery hsame), hmoved, hsame]
  exact .refl _ _

omit [Backend β] [LogSource σ] in
/-- Only the shutdown goes on. -/
theorem Leaving.of_running (h : session.Leaving ended phase?) {number : Nat} {call : Call}
    (hcall : session.calls[number]? = some (.running call)) :
    number = ended.length ∧ ∃ phase, phase? = some phase ∧ call = .shutdown phase := by
  rw [h.calls, List.getElem?_append] at hcall
  split_ifs at hcall with hearlier
  · exact (h.ended _ (List.mem_of_getElem? hcall)).elim
  · have hnumber : number - ended.length = 0 := by
      have hbound := (List.getElem?_eq_some_iff.mp hcall).1
      rw [List.length_singleton] at hbound
      omega
    rw [hnumber] at hcall
    refine ⟨by omega, ?_⟩
    cases phase? with
    | none => nomatch hcall
    | some phase => exact ⟨phase, rfl, (Progress.running.inj (Option.some.inj hcall)).symm⟩

theorem Leaving.advance (h : session.Leaving ended phase?) (number : Nat)
    (preference : Preference) : ∃ phase'?,
      (session.act (.advance number preference)).2.Leaving ended phase'? ∧
        session.Uses (.advance number preference) phase? phase'? := by
  have hstay (hact : (session.act (.advance number preference)).2 = session)
      (hmoves : session.moves (.advance number preference) = false) : ∃ phase'?,
      (session.act (.advance number preference)).2.Leaving ended phase'? ∧
        session.Uses (.advance number preference) phase? phase'? :=
    ⟨phase?, hact.symm ▸ h, uses_nothing (congrArg sequencer hact) rfl hmoves⟩
  cases hcall : session.calls[number]? with
  | none => exact hstay (by simp [act, Session.advance, hcall]) (by simp [moves, hcall])
  | some call =>
    cases call with
    | ended outcome => exact hstay (by simp [act, Session.advance, hcall]) (by simp [moves, hcall])
    | running call =>
      obtain ⟨rfl, phase, rfl, rfl⟩ := h.of_running hcall
      cases hstep : session.sequencer.shutdownStep? phase with
      | none =>
        exact hstay (by simp [act, Session.advance, hcall, callStep?, hstep])
          (by simp [moves, hcall, callStep?, hstep])
      | some result =>
        obtain ⟨progress, after⟩ := result
        have hmove := shutdownMove_of_step hstep
        obtain ⟨phase'?, rfl, hdeparting, houtlay⟩ := h.departing.shutdown hmove
          (.advance ended.length preference : Action β σ)
        have hact : (session.act (.advance ended.length preference)).2 =
            { session with
              sequencer := after
              calls := session.calls.set ended.length (standing phase'?) } := by
          simp [act, Session.advance, hcall, callStep?, hstep]
        have hmoves : session.moves (.advance ended.length preference) = true := by
          simp [moves, hcall, callStep?, hstep]
        refine ⟨phase'?, ?_, ?_⟩
        · rw [hact]
          exact ⟨by simp [h.calls], h.ended, hdeparting⟩
        · rw [Uses, moved_eq hmoves, begun_eq_nil (by rw [hact]; exact hmove.recovery_eq), hact]
          exact houtlay

theorem Leaving.recovery (h : session.Leaving ended phase?) (preference : Preference) :
    (session.act (.recovery preference)).2.Leaving ended phase? ∧
      session.Uses (.recovery preference) phase? phase? := by
  cases hstep : session.sequencer.recoveryStep? session.clock preference session.store
    session.log with
  | none =>
    have hact : (session.act (.recovery preference)).2 = session := by
      simp [act, Session.recovery, hstep]
    exact ⟨hact.symm ▸ h, uses_nothing (congrArg sequencer hact) rfl (by simp [moves, hstep])⟩
  | some result =>
    obtain ⟨after, store, log⟩ := result
    obtain ⟨hdeparting, houtlay⟩ := h.departing.recoveryStep
      (.recovery preference : Action β σ) hstep
    have hact : (session.act (.recovery preference)).2 = { session with
        sequencer := after, store, log
        storeRead := session.reads.1, logRead := session.reads.2 } := by
      simp [act, Session.recovery, hstep]
    have hmoves : session.moves (.recovery preference) = true := by simp [moves, hstep]
    refine ⟨?_, ?_⟩
    · rw [hact]
      exact ⟨h.calls, h.ended, hdeparting⟩
    · rw [Uses, moved_eq hmoves, begun, hact]
      exact houtlay

theorem Leaving.work (h : session.Leaving ended phase?) :
    (session.act .work).2.Leaving ended phase? ∧ session.Uses .work phase? phase? := by
  cases hstep : session.sequencer.workerStep? session.clock false session.store with
  | none =>
    have hact : (session.act .work).2 = session := by simp [act, Session.work, hstep]
    obtain ⟨hdown, -⟩ := h.departing.of_workerStep_eq_none hstep
    have hwritten : session.written .work = [] := by
      have hhand := (h.departing.live.resting hdown).2
      unfold written
      cases hworker : session.sequencer.flusher.worker with
      | writing batch failures =>
        rw [hworker] at hhand
        nomatch hhand
      | _ => rfl
    exact ⟨hact.symm ▸ h, uses_nothing (congrArg sequencer hact) hwritten (by simp [moves, hstep])⟩
  | some result =>
    obtain ⟨after, store⟩ := result
    obtain ⟨hdeparting, houtlay⟩ := h.departing.workerStep (.work : Action β σ) hstep
    obtain ⟨-, flusher, rfl, -⟩ := workerStep_keeps hstep
    have hact : (session.act .work).2 =
        { session with sequencer := { session.sequencer with flusher }, store } := by
      simp [act, Session.work, hstep]
    have hmoves : session.moves .work = true := by simp [moves, hstep]
    refine ⟨?_, ?_⟩
    · rw [hact]
      exact ⟨h.calls, h.ended, hdeparting⟩
    · rw [Uses, moved_eq hmoves, begun_eq_nil (by rw [hact]), hact]
      exact houtlay

theorem Leaving.act (h : session.Leaving ended phase?) (hinternal : action.IsInternal) :
    ∃ phase'?,
      (session.act action).2.Leaving ended phase'? ∧ session.Uses action phase? phase'? := by
  cases action with
  | recover | invoke | takeId | finish | cancel => exact hinternal.elim
  | advance number preference => exact h.advance number preference
  | recovery preference => exact ⟨phase?, h.recovery preference⟩
  | work => exact ⟨phase?, h.work⟩
  | wait | exchange => exact ⟨phase?, { h with }, uses_nothing rfl rfl rfl⟩

theorem Leaving.run (h : session.Leaving ended phase?) {later : List (Action β σ)}
    (hlater : ∀ action ∈ later, action.IsInternal) :
    ∃ phase'?, (session.run later).Leaving ended phase'? ∧
      Outlay session.sequencer phase? (session.trace written later) (session.trace begun later)
        (session.trace moved later) (session.run later).sequencer phase'? := by
  induction later generalizing session phase? with
  | nil => exact ⟨phase?, h, .refl _ _⟩
  | cons action later ih =>
    rw [List.forall_mem_cons] at hlater
    obtain ⟨phase'?, hact, huses⟩ := h.act hlater.1
    obtain ⟨phase''?, hrun, houtlay⟩ := ih hact hlater.2
    exact ⟨phase''?, hrun, huses.trans houtlay⟩

/-- As long as not all are through, somebody need not wait. -/
theorem Leaving.waits_iff (h : session.Leaving ended phase?) :
    (∀ action, session.moves action = false) ↔ session.IsThrough ended.length := by
  constructor
  · intro hwaits
    have hrecovery : session.sequencer.recovery = .absent := by
      by_contra hthere
      have hmoves := hwaits (.recovery .stop)
      rw [moves, Option.isSome_eq_false_iff, Option.isNone_iff_eq_none] at hmoves
      exact recoveryStep_ne_none h.departing.isStopping hthere hmoves
    obtain ⟨hdown, hclosed⟩ := h.departing.of_workerStep_eq_none
      (Option.isNone_iff_eq_none.mp (Option.isSome_eq_false_iff.mp (hwaits .work)))
    cases phase? with
    | none =>
      refine ⟨?_, h.departing.finished rfl, hrecovery, h.departing.worker⟩
      simp [h.calls, standing]
    | some phase =>
      have hmoves := hwaits (.advance ended.length .stop)
      simp only [moves, h.calls, standing, List.getElem?_concat_length, callStep?] at hmoves
      rw [Option.isSome_eq_false_iff, Option.isNone_iff_eq_none] at hmoves
      exact absurd hmoves (h.departing.shutdownStep_ne_none hrecovery hdown hclosed)
  · intro hthrough action
    cases action with
    | recovery preference => simp [moves, recoveryStep?, hthrough.recovery]
    | work => simp [moves, workerStep?, Flusher.workerStep?, hthrough.worker]
    | advance number preference =>
      unfold moves
      dsimp only
      split
      case h_1 call hcall =>
        obtain ⟨rfl, phase, rfl, rfl⟩ := h.of_running hcall
        cases hcall.symm.trans hthrough.call
      case h_2 => rfl
    | _ => rfl

theorem IsReachable.attended (h : session.IsReachable) :
    session.sequencer.Attended session.phases := by
  obtain ⟨store, log, partition, config, actions, rfl⟩ := h
  exact attended_run (attended_create partition config) actions

/-- The request, made while all calls have ended. -/
theorem leaving_requested (h : session.sequencer.Attended session.phases)
    (hended : ∀ call ∈ session.calls, call.IsEnded)
    (hstatus : session.sequencer.status ≠ .eventing) (preference : Preference) :
    let asked := session.run [.invoke .shutdown, .advance session.calls.length preference]
    asked.Leaving session.calls (some .claimingRecovery) ∧
      asked.sequencer.flusher = session.sequencer.flusher := by
  have hphases : session.phases = [] := by
    refine List.filterMap_eq_nil_iff.mpr fun call hcall ↦ ?_
    have hcall := hended call hcall
    cases call with
    | running => exact hcall.elim
    | ended => rfl
  rw [hphases] at h
  have hrun : session.run [.invoke .shutdown, .advance session.calls.length preference] =
      { session with
        sequencer := { session.sequencer with isStopping := true }
        calls := session.calls ++ [standing (some .claimingRecovery)] } := by
    simp [run, act, Session.advance, NewCall.call, callStep?, shutdownStep?, hstatus, standing]
  intro asked
  rw [show asked = _ from hrun]
  exact ⟨⟨rfl, hended, rfl, h.held, h.live, h.recovery.imp_right fun hothers ↦
    hothers.resolve_right List.not_mem_nil, (by cases ·), h.worker.imp_right fun hothers ↦
    hothers.resolve_right List.not_mem_nil, (by cases ·)⟩, rfl⟩

theorem Leaving.bounds (h : session.Leaving ended (some .claimingRecovery))
    {later : List (Action β σ)} (hlater : ∀ action ∈ later, action.IsInternal) :
    (session.trace written later).Sublist
        (session.sequencer.flusher.carried ++ [session.sequencer.flusher.pending]) ∧
      (session.trace begun later).length ≤ 1 ∧ (session.trace moved later).length ≤ 21 := by
  obtain ⟨phase?, -, houtlay⟩ := h.run hlater
  refine ⟨(List.sublist_append_left _ _).trans houtlay.written, ?_, ?_⟩
  · exact (Nat.le_of_add_right_le houtlay.begun).trans (RecoveryTask.outstanding_le _)
  · have hmoved := Nat.le_of_add_right_le houtlay.moved
    have hworker := session.sequencer.flusher.weight_le
    have hrecovery := session.sequencer.recovery.weight_le
    simp only [weight, phaseWeight] at hmoved
    omega

/-- **A shutdown gets through**, whatever reads and writes fail. Once it has made the request, at
most the batch in flight and the pending one are written, each at most once, and at most one attempt
to recover begins. The shutdown, the recovery task and the worker take no more than 21 steps, and as
long as they are not through one of them need not wait. -/
theorem run_shutdown {before : Session β σ} (hbefore : before.IsReachable)
    (hended : ∀ call ∈ before.calls, call.IsEnded)
    (hstatus : before.sequencer.status ≠ .eventing) (preference : Preference)
    {later : List (Action β σ)} (hlater : ∀ action ∈ later, action.IsInternal) :
    let asked := before.run [.invoke .shutdown, .advance before.calls.length preference]
    let after := asked.run later
    asked.sequencer.isStopping = true ∧
      (asked.trace written later).Sublist
        (before.sequencer.flusher.carried ++ [before.sequencer.flusher.pending]) ∧
      (asked.trace written later).length ≤ 2 ∧ (asked.trace begun later).length ≤ 1 ∧
      (asked.trace moved later).length ≤ 21 ∧
      ((∀ action, after.moves action = false) ↔ after.IsThrough before.calls.length) := by
  intro asked after
  have hattended := hbefore.attended
  obtain ⟨hleaving, hflusher⟩ := leaving_requested hattended hended hstatus preference
  obtain ⟨hwritten, hbegun, hmoved⟩ := hleaving.bounds hlater
  obtain ⟨phase?, hafter, -⟩ := hleaving.run hlater
  rw [hflusher] at hwritten
  refine ⟨hleaving.departing.isStopping, hwritten, ?_, hbegun, hmoved, hafter.waits_iff⟩
  have hlength := hwritten.length_le
  rw [List.length_append, List.length_singleton] at hlength
  exact hlength.trans (Nat.succ_le_succ hattended.live.length_carried_le)

end

/-- An outage begins. The batch of one event waits to be written again, another event is pending,
and a third one has been cancelled, so that the recovery task waits for the flag. -/
def outage : List (Action (Faulty Rows) MemoryLog) :=
  .recover :: List.replicate 6 (.recovery .progress) ++
    [.exchange (Faulty.ofBackend ∅).failForever .empty,
      .invoke (.start ⟨10⟩ 0), .advance 0 .progress, .advance 0 .progress, .finish, .work, .work,
      .invoke (.start ⟨10⟩ 0), .advance 1 .progress, .advance 1 .progress, .finish,
      .invoke (.start ⟨10⟩ 0), .advance 2 .progress, .advance 2 .progress, .cancel,
      .recovery .progress]

/-- All take their turns. -/
def rounds (count : Nat) : List (Action (Faulty Rows) MemoryLog) :=
  (List.replicate count [.advance 3 .progress, .recovery .progress, .work]).flatten

/-- The sequencer in the outage. -/
def stricken : Session (Faulty Rows) MemoryLog :=
  (start (Faulty.ofBackend ∅) .empty ⟨1⟩ { Config.default with flushThreshold := 1 }).run outage

/-- The shutdown gets through while the outage lasts: both batches are tried once more. -/
theorem outage_stopped :
    let asked := stricken.run [.invoke .shutdown, .advance stricken.calls.length .progress]
    let after := asked.run (rounds 11)
    stricken.IsReachable ∧ (∀ call ∈ stricken.calls, call.IsEnded) ∧
      stricken.sequencer.status ≠ .eventing ∧ (∀ action ∈ rounds 11, action.IsInternal) ∧
      (asked.trace written (rounds 11)).length = 2 ∧ (asked.trace begun (rounds 11)).length ≤ 1 ∧
      after.IsThrough stricken.calls.length ∧ ∀ action, after.moves action = false := by
  intro asked after
  have hreachable : stricken.IsReachable := ⟨_, _, _, _, outage, rfl⟩
  have hended : ∀ call ∈ stricken.calls, call.IsEnded := by decide +kernel
  have hstatus : stricken.sequencer.status ≠ .eventing := by decide +kernel
  have hlater : ∀ action ∈ rounds 11, action.IsInternal := by decide +kernel
  have hwritten : (asked.trace written (rounds 11)).length = 2 := by decide +kernel
  have hthrough : after.IsThrough stricken.calls.length := by
    constructor <;> decide +kernel
  obtain ⟨-, -, -, hbegun, -, hwaits⟩ :=
    run_shutdown hreachable hended hstatus .progress hlater
  exact ⟨hreachable, hended, hstatus, hlater, hwritten, hbegun, hthrough, hwaits.mpr hthrough⟩

end Session

end Sequencer

end LogSequencing
