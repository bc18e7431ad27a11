import LogSequencing.Proofs.Sequencer.Session
import LogSequencing.Storage.Faulty
import LogSequencing.Storage.Rows
import LogSequencing.Log.Memory

/-!
# Events that begin after a shutdown was requested

A call that is made after the request begins no event (`Sequencer.Session.run_refuses`). A call that
was made before it may: it looks at the request once, and not again when it reserves its offsets
(`Sequencer.Session.late_start`).
-/

set_option autoImplicit false
set_option relaxedAutoImplicit false

namespace LogSequencing

/-- The call has begun no event and is past the look at the request for none. -/
def Progress.IsRefused : Progress → Prop
  | running (.awaitingStart _ _) | running (.reserving _) | ended (.started (some _)) => False
  | _ => True

namespace Sequencer

variable {s after : Sequencer} {reply : Reply} {now : Nat} {preference : Preference}
  {progress : Progress}

theorem ClientMove.isStopping (h : ClientMove s reply after) :
    after.isStopping = s.isStopping := by
  cases h <;> rfl

theorem shutdownStep_refused {phase : ShutdownPhase} (hstopping : s.isStopping = true)
    (h : s.shutdownStep? phase = some (progress, after)) :
    after.isStopping = true ∧ progress.IsRefused := by
  cases shutdownMove_of_step h with
  | request => exact ⟨rfl, trivial⟩
  | _ => exact ⟨hstopping, trivial⟩

/-- A call that goes on after the request keeps it, and is refused if it has not got past it. -/
theorem callStep_refused {call : Call} (hstopping : s.isStopping = true)
    (h : s.callStep? now preference call = some (progress, after)) :
    after.isStopping = true ∧ ((Progress.running call).IsRefused → progress.IsRefused) := by
  cases call with
  | start workspace patience =>
    obtain ⟨rfl, rfl⟩ := Prod.mk.inj (Option.some.inj h)
    rw [beginStart, if_pos hstopping]
    exact ⟨hstopping, fun _ ↦ trivial⟩
  | awaitReady patience =>
    unfold callStep? at h
    dsimp only at h
    split_ifs at h <;> obtain ⟨rfl, rfl⟩ := Prod.mk.inj (Option.some.inj h) <;>
      exact ⟨hstopping, fun _ ↦ trivial⟩
  | awaitingReady deadline =>
    rw [callStep?, Option.map_eq_some_iff] at h
    obtain ⟨_, hcontinue, heq⟩ := h
    obtain ⟨rfl, rfl⟩ := Prod.mk.inj heq
    unfold continueReady? at hcontinue
    split_ifs at hcontinue <;> obtain rfl := Option.some.inj hcontinue <;>
      exact ⟨hstopping, fun _ ↦ trivial⟩
  | awaitingStart | reserving =>
    obtain ⟨hmove, -⟩ := callStep_move (by exact not_false) h
    exact ⟨hmove.isStopping.trans hstopping, False.elim⟩
  | shutdown phase =>
    obtain ⟨hafter, hrefused⟩ := shutdownStep_refused hstopping h
    exact ⟨hafter, fun _ ↦ hrefused⟩

section

variable {β σ : Type} [Backend β] [LogSource σ] {store storeAfter : β} {log logAfter : σ}

/-- What a step of the recovery task can change: the status only in the end, when it installs counters. -/
theorem recoveryStep_eq
    (h : s.recoveryStep? now preference store log = some (after, storeAfter, logAfter)) :
    ∃ recovery counters status, after = { s with recovery, counters, status } ∧
      (status = s.status ∨
        status = .ready ∧ recovery = .absent ∧ ∃ rebuilt, s.recovery = .installing rebuilt) := by
  unfold recoveryStep? at h
  cases hrecovery : s.recovery with
  | absent =>
    rw [hrecovery] at h
    contradiction
  | awaitingFlusher failures =>
    rw [hrecovery] at h
    obtain ⟨waited, hleave, heq⟩ := Option.map_eq_some_iff.mp h
    obtain ⟨rfl, -⟩ := Prod.mk.inj heq
    unfold leaveWait? at hleave
    dsimp only at hleave
    split at hleave <;> first
      | contradiction
      | (obtain rfl := Option.some.inj hleave; exact ⟨_, _, _, rfl, Or.inl rfl⟩)
  | checking | clearing =>
    rw [hrecovery] at h
    obtain ⟨rfl, -⟩ := Prod.mk.inj (Option.some.inj h)
    exact ⟨_, _, _, rfl, Or.inl rfl⟩
  | installing rebuilt =>
    rw [hrecovery] at h
    obtain ⟨rfl, -⟩ := Prod.mk.inj (Option.some.inj h)
    exact ⟨_, _, _, rfl, Or.inr ⟨rfl, rfl, rebuilt, rfl⟩⟩
  | readingCheckpoint failures =>
    rw [hrecovery] at h
    dsimp only at h
    split at h <;> obtain ⟨rfl, -⟩ := Prod.mk.inj (Option.some.inj h) <;>
      exact ⟨_, _, _, rfl, Or.inl rfl⟩
  | readingLog failures checkpoint =>
    rw [hrecovery] at h
    dsimp only at h
    split at h <;> obtain ⟨rfl, -⟩ := Prod.mk.inj (Option.some.inj h) <;>
      exact ⟨_, _, _, rfl, Or.inl rfl⟩
  | backingOff failures wake =>
    rw [hrecovery] at h
    dsimp only at h
    split_ifs at h
    obtain ⟨rfl, -⟩ := Prod.mk.inj (Option.some.inj h)
    exact ⟨_, _, _, rfl, Or.inl rfl⟩

theorem recoveryStep_isStopping
    (h : s.recoveryStep? now preference store log = some (after, storeAfter, logAfter)) :
    after.isStopping = s.isStopping := by
  obtain ⟨recovery, counters, status, rfl, -⟩ := recoveryStep_eq h
  rfl

end

namespace Session

variable {β σ : Type} [Backend β] [LogSource σ] {session : Session β σ}

/-- A shutdown has been requested, and no call from a number on gets an event. -/
structure Refuses (session : Session β σ) (number : Nat) : Prop where
  isStopping : session.sequencer.isStopping = true
  refused : ∀ later call, number ≤ later → session.calls[later]? = some call → call.IsRefused

theorem recovery_isStopping (session : Session β σ) (preference : Preference) :
    (session.recovery preference).sequencer.isStopping = session.sequencer.isStopping ∧
      (session.recovery preference).calls = session.calls := by
  unfold Session.recovery
  cases hstep : session.sequencer.recoveryStep? session.clock preference session.store
    session.log with
  | none => exact ⟨rfl, rfl⟩
  | some result => exact ⟨recoveryStep_isStopping hstep, rfl⟩

omit [LogSource σ] in
theorem work_isStopping (session : Session β σ) :
    session.work.sequencer.isStopping = session.sequencer.isStopping ∧
      session.work.calls = session.calls := by
  unfold Session.work workerStep?
  dsimp only
  cases session.sequencer.flusher.workerStep? session.sequencer.config
    session.sequencer.partition _ session.store <;> exact ⟨rfl, rfl⟩

theorem Refuses.act {number : Nat} (h : session.Refuses number) (action : Action β σ) :
    (session.act action).2.Refuses number := by
  cases action with
  | recover => exact ⟨(recover_move _).isStopping.trans h.isStopping, h.refused⟩
  | takeId sequence => exact ⟨(nextId_move _ sequence).isStopping.trans h.isStopping, h.refused⟩
  | finish => exact ⟨(finishEvent_move _).isStopping.trans h.isStopping, h.refused⟩
  | cancel => exact ⟨(cancelEvent_move _).isStopping.trans h.isStopping, h.refused⟩
  | invoke newCall =>
    refine ⟨h.isStopping, fun later call hlater hcall ↦ ?_⟩
    have hmade : (session.calls ++ [.running newCall.call])[later]? = some call := hcall
    rw [List.getElem?_append] at hmade
    split_ifs at hmade
    · exact h.refused later call hlater hmade
    · rw [List.mem_singleton.mp (List.mem_of_getElem? hmade)]
      cases newCall <;> exact trivial
  | advance other preference =>
    unfold Session.act advance
    dsimp only
    split
    case h_1 call hcall =>
      cases hstep : session.sequencer.callStep? session.clock preference call with
      | none => exact h
      | some result =>
        obtain ⟨hstopping, hrefused⟩ := callStep_refused h.isStopping hstep
        refine ⟨hstopping, fun later progress hlater hprogress ↦ ?_⟩
        rw [List.getElem?_set] at hprogress
        split_ifs at hprogress with heq hbound
        · obtain rfl := Option.some.inj hprogress
          exact hrefused (h.refused later _ hlater (heq ▸ hcall))
        · exact h.refused later progress hlater hprogress
    case h_2 => exact h
  | recovery preference =>
    obtain ⟨hstopping, hcalls⟩ := session.recovery_isStopping preference
    exact ⟨hstopping.trans h.isStopping, hcalls ▸ h.refused⟩
  | work =>
    obtain ⟨hstopping, hcalls⟩ := session.work_isStopping
    exact ⟨hstopping.trans h.isStopping, hcalls ▸ h.refused⟩
  | wait milliseconds => exact ⟨h.isStopping, h.refused⟩
  | exchange store log => exact ⟨h.isStopping, h.refused⟩

/-- Once a shutdown has been requested, a call that is made later never gets an event, whatever
happens. -/
theorem run_refuses (hstopping : session.sequencer.isStopping = true) (actions : List (Action β σ)) :
    (session.run actions).Refuses session.calls.length := by
  have hstart : session.Refuses session.calls.length := by
    refine ⟨hstopping, fun later call hlater hcall ↦ ?_⟩
    rw [List.getElem?_eq_none hlater] at hcall
    contradiction
  generalize session.calls.length = number at hstart ⊢
  induction actions generalizing session with
  | nil => exact hstart
  | cons action actions ih => exact ih (hstart.act action).isStopping (hstart.act action)

/-- A call that looked at the request before it was made begins an event after it. -/
def overtaking : List (Action Rows MemoryLog) :=
  .recover :: List.replicate 6 (.recovery .progress) ++
    [.invoke (.start ⟨10⟩ 0), .advance 0 .progress, .invoke .shutdown, .advance 1 .progress]

theorem late_start :
    let session := (start (∅ : Rows) MemoryLog.empty ⟨1⟩ .default).run overtaking
    session.sequencer.isStopping = true ∧
      (session.act (.advance 0 .progress)).2.calls[0]? =
        some (.ended (.started (some (⟨1⟩, ⟨1⟩)))) ∧
      (session.act (.advance 0 .progress)).2.sequencer.status = .eventing := by
  decide +kernel

end Session

end Sequencer

end LogSequencing
