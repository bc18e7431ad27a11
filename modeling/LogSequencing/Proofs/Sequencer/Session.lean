import LogSequencing.Proofs.Flusher
import LogSequencing.Sequencer.Call

/-!
# A sequencer in use

Any number of callers share a sequencer. They start events, wait for recoveries, take record numbers,
finish and cancel events, and shut the sequencer down, while its recovery task and the worker of its
flusher go on. Steps of all of them come in any order. Between two steps the store and the log may be
exchanged for any others: reads and writes begin to fail or succeed, and events are committed.

What a caller can do who does not shut the sequencer down is told once (`ClientMove`), and so is
what a shutdown can do (`ShutdownMove`).
-/

set_option autoImplicit false
set_option relaxedAutoImplicit false

namespace LogSequencing

/-- A call that may have to wait, as its caller makes it. -/
inductive NewCall where
  | start (workspace : WorkspaceId) (patience : Nat)
  | awaitReady (patience : Nat)
  | shutdown
deriving DecidableEq, Repr

def NewCall.call : NewCall → Call
  | start workspace patience => .start workspace patience
  | awaitReady patience => .awaitReady patience
  | shutdown => .shutdown .requesting

/-- What a caller is told. -/
inductive Reply where
  | nothing
  | progress (progress : Progress)
  | result (result : Except Violation Unit)
  | id (result : Except Violation RecordId)

/-- A shutdown goes on. -/
def Progress.IsStopping : Progress → Prop
  | running (.shutdown _) => True
  | _ => False

/-- The reply has the offsets of an event or a record number. -/
def Reply.Allots : Reply → Prop
  | progress (.ended (.started (some _))) | id (.ok _) => True
  | _ => False

/-- The task has waited for the flusher, and its attempt is not over. -/
def RecoveryTask.IsAttempting : RecoveryTask → Prop
  | clearing _ | readingCheckpoint _ | readingLog _ _ | installing _ => True
  | _ => False

theorem RecoveryTask.isAbsent_iff (task : RecoveryTask) : task.isAbsent ↔ task = .absent := by
  cases task <;> simp [RecoveryTask.isAbsent]

namespace Sequencer

structure Session (β σ : Type) where
  sequencer : Sequencer
  store : β
  log : σ
  clock : Nat
  /-- How far the calls that may have to wait have come. -/
  calls : List Progress
  /-- The store as it was when the recovery task last read the checkpoint. -/
  storeRead : β
  /-- The log as it was when the recovery task last read it. -/
  logRead : σ

namespace Session

inductive Action (β σ : Type) where
  | recover
  | invoke (newCall : NewCall)
  /-- A call goes on. -/
  | advance (call : Nat) (preference : Preference)
  | takeId (sequence : IdSequence)
  | finish
  | cancel
  | recovery (preference : Preference)
  | work
  | wait (milliseconds : Nat)
  | exchange (store : β) (log : σ)

variable {β σ : Type}

def start (store : β) (log : σ) (partition : PartitionId) (config : Config) : Session β σ :=
  ⟨.create partition config, store, log, 0, [], store, log⟩

def advance (session : Session β σ) (number : Nat) (preference : Preference) :
    Reply × Session β σ :=
  match session.calls[number]? with
  | some (.running call) =>
    match session.sequencer.callStep? session.clock preference call with
    | some (progress, sequencer) =>
      (.progress progress,
        { session with sequencer, calls := session.calls.set number progress })
    | none => (.nothing, session)
  | _ => (.nothing, session)

section

variable [Backend β] [LogSource σ]

/-- The store and the log that the recovery task has read last when it has taken its next step. -/
def reads (session : Session β σ) : β × σ :=
  match session.sequencer.recovery with
  | .readingCheckpoint _ => (session.store, session.logRead)
  | .readingLog _ _ => (session.storeRead, session.log)
  | _ => (session.storeRead, session.logRead)

def recovery (session : Session β σ) (preference : Preference) : Session β σ :=
  match session.sequencer.recoveryStep? session.clock preference session.store session.log with
  | none => session
  | some (sequencer, store, log) =>
    { session with
      sequencer, store, log, storeRead := session.reads.1, logRead := session.reads.2 }

def work (session : Session β σ) : Session β σ :=
  match session.sequencer.workerStep? session.clock false session.store with
  | none => session
  | some (sequencer, store) => { session with sequencer, store }

def act (session : Session β σ) : Action β σ → Reply × Session β σ
  | .recover =>
    let (result, sequencer) := session.sequencer.recover
    (.result result, { session with sequencer })
  | .invoke newCall =>
    (.nothing, { session with calls := session.calls ++ [.running newCall.call] })
  | .advance number preference => session.advance number preference
  | .takeId sequence =>
    let (result, sequencer) := session.sequencer.nextId sequence
    (.id result, { session with sequencer })
  | .finish =>
    let (result, sequencer) := session.sequencer.finishEvent
    (.result result, { session with sequencer })
  | .cancel =>
    let (result, sequencer) := session.sequencer.cancelEvent
    (.result result, { session with sequencer })
  | .recovery preference => (.nothing, session.recovery preference)
  | .work => (.nothing, session.work)
  | .wait milliseconds => (.nothing, { session with clock := session.clock + milliseconds })
  | .exchange store log => (.nothing, { session with store, log })

def run (session : Session β σ) (actions : List (Action β σ)) : Session β σ :=
  actions.foldl (fun session action ↦ (session.act action).2) session

end

end Session

/-! ### What callers can do -/

/-- What a caller can do to a sequencer without shutting it down, and what the caller is told. -/
inductive ClientMove (s : Sequencer) : Reply → Sequencer → Prop where
  /-- The sequencer stays as it is. -/
  | stay {reply : Reply} (hreply : ¬ reply.Allots) : ClientMove s reply s
  | reopen (hstatus : s.status = .created ∨ s.status = .eventing) :
      ClientMove s (.result (.ok ())) s.startRecovery
  /-- Numbers are taken, or found to be used up. -/
  | take {reply : Reply} (workspace : WorkspaceId) {status : Status} (counters : Counters)
      (hbefore : s.status = .ready ∨ s.status = .eventing)
      (hafter : status = .ready ∨ status = .eventing) :
      ClientMove s reply { s with workspace, status, counters }
  | finish (hstatus : s.status = .eventing) :
      ClientMove s (.result (.ok ())) { s with
        status := .ready
        flusher := s.flusher.collect s.config.flushThreshold.toNat s.finishedEvent }

variable (s : Sequencer)

theorem recover_move : ClientMove s (.result s.recover.1) s.recover.2 := by
  unfold recover guarded
  split_ifs with hstatus
  · exact .reopen (Or.inl hstatus)
  · exact .stay not_false

theorem cancelEvent_move : ClientMove s (.result s.cancelEvent.1) s.cancelEvent.2 := by
  unfold cancelEvent guarded
  split_ifs with hstatus
  · exact .reopen (Or.inr hstatus)
  · exact .stay not_false

theorem finishEvent_move : ClientMove s (.result s.finishEvent.1) s.finishEvent.2 := by
  unfold finishEvent guarded
  split_ifs with hstatus
  · exact .finish hstatus
  · exact .stay not_false

theorem nextId_move (sequence : IdSequence) :
    ClientMove s (.id (s.nextId sequence).1) (s.nextId sequence).2 := by
  unfold nextId guarded
  split_ifs with hstatus
  · have heventing : s.status = .eventing := by
      rw [hstatus]
      cases sequence <;> rfl
    dsimp only
    cases (s.counters.lastId sequence s.workspace).next? with
    | none => exact .stay not_false
    | some id => exact .take _ _ (Or.inr heventing) (Or.inr heventing)
  · exact .stay not_false

theorem reserve_move (workspace : WorkspaceId) :
    ClientMove s (.progress (s.reserve workspace).1) (s.reserve workspace).2 := by
  unfold reserve
  cases hstatus : s.status with
  | ready =>
    have htaken : ∀ {reply : Reply} {status : Status} (counters : Counters),
        status = .ready ∨ status = .eventing →
        ClientMove s reply { s with workspace, status, counters } := fun counters hafter ↦
      .take workspace counters (Or.inl hstatus) hafter
    unfold takeOffsets
    cases s.counters.offset.next? with
    | none => exact htaken _ (Or.inl hstatus)
    | some offset =>
      unfold takeWorkspaceOffset
      dsimp only
      cases Serial.next? _ with
      | none => exact htaken _ (Or.inl hstatus)
      | some last => exact htaken _ (Or.inr rfl)
  | recovering | finished | created | eventing => exact .stay not_false

theorem not_isStopping_reserve (workspace : WorkspaceId) :
    ¬ (s.reserve workspace).1.IsStopping := by
  unfold reserve
  split
  · split <;> exact not_false
  all_goals exact not_false

variable {s} {after : Sequencer} {now : Nat} {preference : Preference} {progress : Progress}
  {phase : ShutdownPhase}

/-- A call that waits, or that gives up waiting, leaves the sequencer as it is. -/
theorem callStep_move {call : Call} (hcall : ¬ (Progress.running call).IsStopping)
    (h : s.callStep? now preference call = some (progress, after)) :
    ClientMove s (.progress progress) after ∧ ¬ progress.IsStopping := by
  cases call with
  | start workspace patience =>
    obtain ⟨rfl, rfl⟩ := Prod.mk.inj (Option.some.inj h)
    unfold beginStart
    split_ifs <;> exact ⟨.stay not_false, not_false⟩
  | awaitingStart workspace deadline =>
    rw [callStep?, Option.map_eq_some_iff] at h
    obtain ⟨_, hcontinue, heq⟩ := h
    obtain ⟨rfl, rfl⟩ := Prod.mk.inj heq
    unfold continueStart? at hcontinue
    split_ifs at hcontinue <;> obtain rfl := Option.some.inj hcontinue <;>
      exact ⟨.stay not_false, not_false⟩
  | reserving workspace =>
    have hreserve := And.intro (reserve_move s workspace) (not_isStopping_reserve s workspace)
    rw [Option.some.inj h] at hreserve
    exact hreserve
  | awaitReady patience =>
    unfold callStep? at h
    dsimp only at h
    split_ifs at h <;> obtain ⟨rfl, rfl⟩ := Prod.mk.inj (Option.some.inj h) <;>
      exact ⟨.stay not_false, not_false⟩
  | awaitingReady deadline =>
    rw [callStep?, Option.map_eq_some_iff] at h
    obtain ⟨_, hcontinue, heq⟩ := h
    obtain ⟨rfl, rfl⟩ := Prod.mk.inj heq
    unfold continueReady? at hcontinue
    split_ifs at hcontinue <;> obtain rfl := Option.some.inj hcontinue <;>
      exact ⟨.stay not_false, not_false⟩
  | shutdown phase => exact absurd trivial hcall

/-! ### What a shutdown can do -/

/-- What a step of a shutdown can do. -/
inductive ShutdownMove (s : Sequencer) : ShutdownPhase → Progress → Sequencer → Prop where
  | refuse (heventing : s.status = .eventing) : ShutdownMove s .requesting
      (.ended (.violated (.shutdownDuringEvent s.partition))) s
  | request (hother : s.status ≠ .eventing) : ShutdownMove s .requesting
      (.running (.shutdown .claimingRecovery)) { s with isStopping := true }
  | claim (hunclaimed : s.recoveryUnclaimed = true) : ShutdownMove s .claimingRecovery
      (.running (.shutdown (.awaitingRecovery s.recoveries))) { s with recoveryUnclaimed := false }
  /-- Nobody is left to wait for, or somebody else waits. -/
  | skip (hclaimed : s.recoveryUnclaimed ≠ true) : ShutdownMove s .claimingRecovery
      (.running (.shutdown .awaitingFlush)) s
  | outlast (number : Nat) (hended : s.recovery = .absent ∨ s.recoveries ≠ number) :
      ShutdownMove s (.awaitingRecovery number) (.running (.shutdown .awaitingFlush)) s
  | settle (hdown : s.flusher.active = false) : ShutdownMove s .awaitingFlush
      (.running (.shutdown .handingOff)) s
  | retry (hactive : s.flusher.active = true) : ShutdownMove s .handingOff
      (.running (.shutdown .awaitingFlush)) s
  | handOff : ShutdownMove s .handingOff (.running (.shutdown .draining))
      { s with flusher := s.flusher.tryHandOff.2 }
  | drain (hdown : s.flusher.active = false) : ShutdownMove s .draining
      (.running (.shutdown .closing)) s
  | close (hunclaimed : s.flusher.workerUnclaimed = true) : ShutdownMove s .closing
      (.running (.shutdown .awaitingWorker))
      { s with flusher := { s.flusher with isOpen := false, workerUnclaimed := false } }
  | closeClaimed (hclaimed : s.flusher.workerUnclaimed ≠ true) : ShutdownMove s .closing
      (.running (.shutdown .finishing))
      { s with flusher := { s.flusher with isOpen := false, workerUnclaimed := false } }
  | bury (hgone : s.flusher.worker = .gone) : ShutdownMove s .awaitingWorker
      (.running (.shutdown .finishing)) s
  | finish : ShutdownMove s .finishing (.ended .stopped) { s with status := .finished }

theorem ShutdownMove.recovery_eq (h : ShutdownMove s phase progress after) :
    after.recovery = s.recovery := by
  cases h <;> rfl

theorem shutdownMove_of_step (h : s.shutdownStep? phase = some (progress, after)) :
    ShutdownMove s phase progress after := by
  cases phase with
  | requesting =>
    unfold shutdownStep? at h
    dsimp only at h
    split_ifs at h with heventing <;> obtain ⟨rfl, rfl⟩ := Prod.mk.inj (Option.some.inj h)
    · exact .refuse heventing
    · exact .request heventing
  | claimingRecovery =>
    unfold shutdownStep? at h
    dsimp only at h
    split_ifs at h with hunclaimed <;> obtain ⟨rfl, rfl⟩ := Prod.mk.inj (Option.some.inj h)
    · exact .claim hunclaimed
    · exact .skip hunclaimed
  | awaitingRecovery number =>
    unfold shutdownStep? at h
    dsimp only at h
    split_ifs at h with hended
    obtain ⟨rfl, rfl⟩ := Prod.mk.inj (Option.some.inj h)
    exact .outlast number (hended.imp_left (RecoveryTask.isAbsent_iff _).mp)
  | awaitingFlush =>
    unfold shutdownStep? at h
    dsimp only at h
    split_ifs at h with hactive
    obtain ⟨rfl, rfl⟩ := Prod.mk.inj (Option.some.inj h)
    exact .settle (Bool.eq_false_iff.mpr hactive)
  | handingOff =>
    unfold shutdownStep? at h
    rcases htry : s.flusher.tryHandOff with ⟨result, flusher⟩
    rw [htry] at h
    dsimp only at h
    split_ifs at h with hbusy <;> obtain ⟨rfl, rfl⟩ := Prod.mk.inj (Option.some.inj h)
    · subst hbusy
      obtain ⟨hactive, rfl⟩ := Flusher.of_tryHandOff_busy htry
      exact .retry hactive
    · obtain rfl : s.flusher.tryHandOff.2 = flusher := congrArg Prod.snd htry
      exact .handOff
  | draining =>
    unfold shutdownStep? at h
    dsimp only at h
    split_ifs at h with hactive
    obtain ⟨rfl, rfl⟩ := Prod.mk.inj (Option.some.inj h)
    exact .drain (Bool.eq_false_iff.mpr hactive)
  | closing =>
    unfold shutdownStep? at h
    dsimp only at h
    split_ifs at h with hunclaimed <;> obtain ⟨rfl, rfl⟩ := Prod.mk.inj (Option.some.inj h)
    · exact .close hunclaimed
    · exact .closeClaimed hunclaimed
  | awaitingWorker =>
    unfold shutdownStep? at h
    dsimp only at h
    split_ifs at h with hgone
    obtain ⟨rfl, rfl⟩ := Prod.mk.inj (Option.some.inj h)
    exact .bury hgone
  | finishing =>
    obtain ⟨rfl, rfl⟩ := Prod.mk.inj (Option.some.inj h)
    exact .finish

/-! ### What a step can do -/

/-- As long as somebody holds the sequencer, the worker does not end for lack of clients. -/
theorem workerMove_of_held {β : Type} [Backend β] {store left : β} (hheld : s.isDropped = false)
    (hstep : s.workerStep? now false store = some (after, left)) :
    ∃ flusher, after = { s with flusher } ∧
      Flusher.WorkerMove s.partition s.isStopping s.flusher store flusher left := by
  obtain ⟨⟨flusher, written⟩, hworks, heq⟩ := Option.map_eq_some_iff.mp hstep
  obtain ⟨rfl, rfl⟩ := Prod.mk.inj heq
  refine ⟨flusher, rfl, Flusher.workerMove_of_step hworks ?_⟩
  rw [isReleased, hheld]
  rfl

namespace Session

variable {β σ : Type} [Backend β] [LogSource σ] {session : Session β σ}

/-- Nobody is shutting the sequencer down. -/
def Serves (session : Session β σ) : Prop := ∀ call ∈ session.calls, ¬ call.IsStopping

/-- What an action can do while nobody shuts the sequencer down. -/
inductive Step (session : Session β σ) : Reply → Session β σ → Prop where
  | client {reply : Reply} {sequencer : Sequencer} (calls : List Progress)
      (hmove : ClientMove session.sequencer reply sequencer) :
      Step session reply { session with sequencer, calls }
  | recovery (preference : Preference) : Step session .nothing (session.recovery preference)
  | work : Step session .nothing session.work
  | pass (clock : Nat) (store : β) (log : σ) :
      Step session .nothing { session with clock, store, log }

theorem Serves.step_of_act (h : session.Serves) (action : Action β σ) :
    Step session (session.act action).1 (session.act action).2 := by
  cases action with
  | recover => exact .client _ (recover_move _)
  | invoke newCall => exact .client _ (.stay not_false)
  | advance number preference =>
    unfold act advance
    dsimp only
    split
    case h_1 call hcall =>
      cases hstep : session.sequencer.callStep? session.clock preference call with
      | none => exact .client _ (.stay not_false)
      | some result => exact .client _ (callStep_move (h _ (List.mem_of_getElem? hcall)) hstep).1
    case h_2 => exact .client _ (.stay not_false)
  | takeId sequence => exact .client _ (nextId_move _ sequence)
  | finish => exact .client _ (finishEvent_move _)
  | cancel => exact .client _ (cancelEvent_move _)
  | recovery preference => exact .recovery preference
  | work => exact .work
  | wait milliseconds => exact .pass _ _ _
  | exchange store log => exact .pass _ _ _

/-- Unless a shutdown is asked for, nobody shuts the sequencer down. -/
theorem Serves.act (h : session.Serves) {action : Action β σ}
    (haction : action ≠ .invoke .shutdown) : (session.act action).2.Serves := by
  cases action with
  | invoke newCall =>
    intro call hcall
    rcases List.mem_append.mp hcall with hbefore | hnew
    · exact h call hbefore
    · rw [List.mem_singleton.mp hnew]
      cases newCall with
      | shutdown => exact absurd rfl haction
      | start | awaitReady => exact not_false
  | advance number preference =>
    unfold Session.act advance
    dsimp only
    split
    case h_1 call hcall =>
      cases hstep : session.sequencer.callStep? session.clock preference call with
      | none => exact h
      | some result =>
        intro other hother
        rcases List.mem_or_eq_of_mem_set hother with hbefore | rfl
        · exact h other hbefore
        · exact (callStep_move (h _ (List.mem_of_getElem? hcall)) hstep).2
    case h_2 => exact h
  | recovery preference =>
    unfold Session.act recovery
    dsimp only
    split <;> exact h
  | work =>
    unfold Session.act work
    dsimp only
    split <;> exact h
  | _ => exact h

/-- What the recovery task can do while nobody shuts the sequencer down. -/
inductive RecoveryMove (session : Session β σ) : Session β σ → Prop where
  /-- There is no task, or it waits. -/
  | stay : RecoveryMove session session
  /-- The task goes on without keeping what it may have read. -/
  | wander {recovery : RecoveryTask} {store storeRead : β} {log logRead : σ}
      (hbefore : session.sequencer.recovery ≠ .absent) (hafter : recovery ≠ .absent)
      (hidle : ¬ recovery.IsAttempting) :
      RecoveryMove session { session with
        sequencer := { session.sequencer with recovery }
        store, log, storeRead, logRead }
  | attempt (failures : Nat) (hbefore : session.sequencer.recovery = .awaitingFlusher failures)
      (hactive : session.sequencer.flusher.active = false) :
      RecoveryMove session { session with
        sequencer := { session.sequencer with recovery := .clearing failures } }
  | clear (failures : Nat) (hbefore : session.sequencer.recovery = .clearing failures) :
      RecoveryMove session { session with
        sequencer := { session.sequencer with
          counters := .empty
          recovery := .readingCheckpoint failures } }
  | readCheckpoint (failures : Nat) (checkpoint : Counters) (store : β)
      (hbefore : session.sequencer.recovery = .readingCheckpoint failures)
      (hread : Checkpoint.readPartition session.store session.sequencer.partition =
        (.ok checkpoint, store)) :
      RecoveryMove session { session with
        sequencer := { session.sequencer with recovery := .readingLog failures checkpoint }
        store, storeRead := session.store }
  | readLog (failures : Nat) (checkpoint counters : Counters) (reading : Reading) (log : σ)
      (hbefore : session.sequencer.recovery = .readingLog failures checkpoint)
      (hread : LogSource.readFrom session.log session.sequencer.partition checkpoint.offset =
        (reading, log))
      (hcounters : Checkpoint.observeReading checkpoint reading = .ok counters) :
      RecoveryMove session { session with
        sequencer := { session.sequencer with recovery := .installing counters }
        log, logRead := session.log }
  | install (counters : Counters) (hbefore : session.sequencer.recovery = .installing counters) :
      RecoveryMove session { session with sequencer := session.sequencer.install counters }

theorem recovery_move (hgoing : session.sequencer.isStopping = false) (preference : Preference) :
    RecoveryMove session (session.recovery preference) := by
  have hserves : ¬ session.sequencer.isStopping = true := by simp [hgoing]
  have hpresent (recovery : RecoveryTask) (hrecovery : session.sequencer.recovery = recovery)
      (hother : recovery ≠ .absent) : session.sequencer.recovery ≠ .absent := hrecovery ▸ hother
  unfold Session.recovery recoveryStep? reads
  cases hrecovery : session.sequencer.recovery with
  | absent => exact .stay
  | checking failures =>
    dsimp only
    rw [if_neg hserves]
    exact .wander (hpresent _ hrecovery nofun) nofun not_false
  | awaitingFlusher failures =>
    dsimp only
    cases hactive : session.sequencer.flusher.active with
    | true =>
      simp only [leaveWait?, hgoing, hactive]
      exact .stay
    | false =>
      have hleave : session.sequencer.leaveWait? failures preference =
          some { session.sequencer with recovery := .clearing failures } := by
        simp only [leaveWait?, hgoing, hactive]
      rw [hleave]
      exact .attempt failures hrecovery hactive
  | clearing failures => exact .clear failures hrecovery
  | readingCheckpoint failures =>
    dsimp only
    cases hread : Checkpoint.readPartition session.store session.sequencer.partition with
    | mk result store =>
      cases result with
      | error error => exact .wander (hpresent _ hrecovery nofun) nofun not_false
      | ok checkpoint => exact .readCheckpoint failures checkpoint store hrecovery hread
  | readingLog failures checkpoint =>
    dsimp only
    cases hread : LogSource.readFrom session.log session.sequencer.partition checkpoint.offset with
    | mk reading log =>
      dsimp only
      cases hcounters : Checkpoint.observeReading checkpoint reading with
      | error error => exact .wander (hpresent _ hrecovery nofun) nofun not_false
      | ok counters =>
        exact .readLog failures checkpoint counters reading log hrecovery hread hcounters
  | installing counters => exact .install counters hrecovery
  | backingOff failures wake =>
    dsimp only
    split_ifs
    · exact .wander (hpresent _ hrecovery nofun) nofun not_false
    · exact .stay

end Session

end Sequencer

end LogSequencing
