import LogSequencing.Proofs.Sequencer.Attempts
import LogSequencing.Proofs.Sequencer.Completion

/-!
# How long a retry waits

A sequencer may be dropped without a shutdown. Calls then end where they stand and nobody can make
another, but the recovery task and the worker go on for as long as they have something to do. A
`Watch` keeps the attempts that both make.

An attempt to recover that follows a failure always comes after the full delay. So does an attempt to
write while the sequencer is held and nobody has asked for a shutdown. But the worker waits for the
shutdown together with the delay, and this wait ends as well when nobody is left who could ask for
one: from then on it tries again at once, for as long as the writes fail (`attempts_paced`).
-/

set_option autoImplicit false
set_option relaxedAutoImplicit false

namespace LogSequencing

namespace Sequencer

variable {s after : Sequencer}

/-! ### What callers leave alone -/

/-- The counters are being rebuilt, or the sequencer has been shut down. No caller can begin to rebuild
them then. -/
def IsUnready (s : Sequencer) : Prop := s.status = .recovering ∨ s.status = .finished

/-- The worker stays where it stands, the recovery task does so or begins anew, and nobody takes back
the request for a shutdown. -/
structure Spares (s after : Sequencer) : Prop where
  config : after.config = s.config
  isDropped : after.isDropped = s.isDropped
  isStopping : s.isStopping = true → after.isStopping = true
  worker : after.flusher.worker = s.flusher.worker
  isUnready : s.IsUnready → after.IsUnready
  recovery : after.recovery = s.recovery ∨
    (after.recovery = .checking 0 ∧ ¬ s.IsUnready ∧ after.IsUnready)

theorem Spares.refl (s : Sequencer) : s.Spares s := ⟨rfl, rfl, id, rfl, id, Or.inl rfl⟩

theorem not_isUnready (h : s.status = .created ∨ s.status = .ready ∨ s.status = .eventing) :
    ¬ s.IsUnready := by
  rintro (hrecovering | hfinished)
  · simp [hrecovering] at h
  · simp [hfinished] at h

theorem ClientMove.spares {reply : Reply} (h : ClientMove s reply after) : s.Spares after := by
  cases h with
  | stay => exact .refl s
  | reopen hstatus =>
    have hready := not_isUnready (hstatus.imp_right Or.inr)
    exact ⟨rfl, rfl, id, rfl, fun _ ↦ Or.inl rfl, Or.inr ⟨rfl, hready, Or.inl rfl⟩⟩
  | take _ _ hbefore =>
    have hready := not_isUnready (Or.inr hbefore)
    exact ⟨rfl, rfl, id, rfl, fun h ↦ absurd h hready, Or.inl rfl⟩
  | finish hstatus =>
    have hready := not_isUnready (Or.inr (Or.inr hstatus))
    exact ⟨rfl, rfl, id, (collect_keeps ..).1, fun h ↦ absurd h hready, Or.inl rfl⟩

theorem ShutdownMove.spares {phase : ShutdownPhase} {progress : Progress}
    (h : ShutdownMove s phase progress after) : s.Spares after := by
  cases h with
  | request => exact ⟨rfl, rfl, fun _ ↦ rfl, rfl, id, Or.inl rfl⟩
  | handOff => exact ⟨rfl, rfl, id, (tryHandOff_keeps _).1, id, Or.inl rfl⟩
  | claim | close | closeClaimed => exact ⟨rfl, rfl, id, rfl, id, Or.inl rfl⟩
  | finish => exact ⟨rfl, rfl, id, rfl, fun _ ↦ Or.inr rfl, Or.inl rfl⟩
  | _ => exact .refl s

theorem callStep_spares {now : Nat} {preference : Preference} {call : Call} {progress : Progress}
    (h : s.callStep? now preference call = some (progress, after)) : s.Spares after := by
  cases call with
  | shutdown phase => exact (shutdownMove_of_step h).spares
  | _ =>
    refine (callStep_move ?_ h).1.spares
    exact not_false

theorem leaveWait_cases (s : Sequencer) (failures : Nat) (preference : Preference) :
    s.leaveWait? failures preference = none ∨
      (s.leaveWait? failures preference = some { s with recovery := .checking failures } ∧
        s.isStopping = true) ∨
      s.leaveWait? failures preference = some { s with recovery := .clearing failures } := by
  unfold leaveWait?
  split <;> simp_all

namespace Session

variable {β σ : Type}

/-! ### The end of the last handle -/

/-- What happens to a sequencer until long after it has been dropped. -/
inductive Occurrence (β σ : Type) where
  | act (action : Action β σ)
  /-- The last handle is dropped, and the calls going on with it. -/
  | drop

/-- What the worker sees of its surroundings. -/
def signals (session : Session β σ) : Flusher.Signals :=
  ⟨session.clock, session.sequencer.isStopping, session.sequencer.isReleased⟩

/-- A sequencer with the attempts made so far, the latest first. -/
structure Watch (β σ : Type) where
  session : Session β σ
  writes : List (AttemptEvent Batch)
  recoveries : List (AttemptEvent Unit)

namespace Watch

def start (store : β) (log : σ) (partition : PartitionId) (config : Config) : Watch β σ :=
  ⟨.start store log partition config, [], []⟩

/-- The attempts are paced, and the worker and the recovery task stand where they should. `IsDropped`
is true if the sequencer has been dropped. -/
structure Keeps (config : Config) (IsDropped : Prop) (watch : Watch β σ) : Prop where
  configured : watch.session.sequencer.config = config
  dropped : watch.session.sequencer.isDropped = true → watch.session.calls = [] ∧ IsDropped
  writes : Paced config (Worker.IsExcused IsDropped) watch.writes
  worker : watch.session.sequencer.flusher.worker.Follows config IsDropped watch.session.signals
    watch.writes
  steadfast : watch.session.sequencer.flusher.worker.IsSteadfast watch.session.signals watch.writes
  recoveries : Paced config (fun _ ↦ False) watch.recoveries
  recovery : watch.session.sequencer.recovery.Follows config watch.session.signals watch.recoveries
  /-- While a recovery is going on or has failed, no other can begin. -/
  isUnready : watch.session.sequencer.recovery ≠ .absent ∨ IsFailing () watch.recoveries →
    watch.session.sequencer.IsUnready

variable {config : Config} {IsDropped : Prop} {watch : Watch β σ}

theorem keeps_start (store : β) (log : σ) (partition : PartitionId) (config : Config)
    (IsDropped : Prop) : (start store log partition config).Keeps config IsDropped :=
  ⟨rfl, nofun, .nothing, trivial, nofun, .nothing, trivial, fun h ↦ (h.resolve_right id).elim rfl⟩

theorem Keeps.released (h : watch.Keeps config IsDropped)
    (hreleased : watch.session.signals.isReleased = true) : IsDropped :=
  (h.dropped (Bool.and_eq_true_iff.mp hreleased).1).2

end Watch

/-! ### What happens -/

variable [Backend β] [LogSource σ]

/-- No client asks for anything once there is no handle. -/
def undergo (session : Session β σ) : Occurrence β σ → Session β σ
  | .drop => { session with sequencer := session.sequencer.drop, calls := [] }
  | .act action =>
    if session.sequencer.isDropped = true ∧ ¬ action.IsInternal then session
    else (session.act action).2

/-- The attempts to write that are made, the latest first. -/
def writeAttempts (session : Session β σ) : Occurrence β σ → List (AttemptEvent Batch)
  | .act .work =>
    match session.sequencer.flusher.worker with
    | .writing batch failures =>
      match (Checkpoint.putBatch session.store session.sequencer.partition batch.rows).1 with
      | .ok () => [.began batch failures session.signals]
      | .error _ =>
        [.failed batch (failures + 1) session.clock, .began batch failures session.signals]
    | _ => []
  | _ => []

/-- The attempts to recover that begin or fail. An attempt begins when it clears the counters. -/
def recoveryAttempts (session : Session β σ) : Occurrence β σ → List (AttemptEvent Unit)
  | .act (.recovery preference) =>
    match session.sequencer.recovery, (session.recovery preference).sequencer.recovery with
    | .clearing failures, _ => [.began () failures session.signals]
    | .readingCheckpoint _, .backingOff failures _ | .readingLog _ _, .backingOff failures _ =>
      [.failed () failures session.clock]
    | _, _ => []
  | _ => []

omit [LogSource σ] in
theorem work_eq (session : Session β σ) :
    session.work = match session.sequencer.flusher.workerStep? session.sequencer.config
        session.sequencer.partition session.signals session.store with
      | none => session
      | some (flusher, store) =>
        { session with sequencer := { session.sequencer with flusher }, store } := by
  have hsignals : session.signals =
      ⟨session.clock, session.sequencer.isStopping, session.sequencer.isReleased && !false⟩ := by
    simp [signals]
  unfold Session.work Sequencer.workerStep?
  rw [← hsignals]
  dsimp only
  rcases session.sequencer.flusher.workerStep? session.sequencer.config session.sequencer.partition
    session.signals session.store with _ | ⟨_, _⟩ <;> rfl

omit [LogSource σ] in
theorem work_turn (session : Session β σ) :
    Worker.Turn session.sequencer.config session.signals session.sequencer.flusher.worker
      session.work.sequencer.flusher.worker (session.writeAttempts (.act .work)) := by
  rw [work_eq, Flusher.workerStep?, writeAttempts]
  cases hworker : session.sequencer.flusher.worker with
  | idle =>
    dsimp only
    cases session.sequencer.flusher.handedOff? with
    | some batch => exact .take batch
    | none =>
      dsimp only
      split_ifs
      · exact .leave
      · rw [hworker]
        exact .stay _
  | writing batch failures =>
    dsimp only
    rcases Checkpoint.putBatch session.store session.sequencer.partition batch.rows with ⟨_ | _, _⟩
    · dsimp only
      split_ifs with hstopping
      · exact .abandon batch failures hstopping
      · exact .fail batch failures
    · exact .land batch failures
  | backingOff batch failures wake =>
    dsimp only
    split_ifs with hwake
    · exact .retry batch failures wake hwake
    · rw [hworker]
      exact .stay _
  | clearing => exact .lower
  | gone =>
    dsimp only
    rw [hworker]
    exact .stay _

theorem recovery_turn (session : Session β σ) (preference : Preference) :
    RecoveryTask.Turn session.sequencer.config session.signals session.sequencer.recovery
      (session.recovery preference).sequencer.recovery
      (session.recoveryAttempts (.act (.recovery preference))) := by
  unfold recoveryAttempts
  unfold Session.recovery recoveryStep?
  cases hrecovery : session.sequencer.recovery with
  | absent =>
    dsimp only
    rw [hrecovery]
    exact .stay _
  | checking failures =>
    dsimp only
    split_ifs with hstopping
    · exact .stop failures
    · exact .goOn failures (Bool.eq_false_iff.mpr hstopping)
  | awaitingFlusher failures =>
    dsimp only
    rcases session.sequencer.leaveWait_cases failures preference with
      hwait | ⟨hleave, hstopping⟩ | hattempt
    · rw [hwait, Option.map_none]
      dsimp only
      rw [hrecovery]
      exact .stay _
    · rw [hleave]
      exact .leave failures hstopping
    · rw [hattempt]
      exact .attempt failures
  | clearing failures => exact .clear failures
  | readingCheckpoint failures =>
    dsimp only
    rcases Checkpoint.readPartition session.store session.sequencer.partition with ⟨_ | _, _⟩
    · exact .failCheckpoint failures
    · exact .read failures _
  | readingLog failures checkpoint =>
    dsimp only
    cases Checkpoint.observeReading checkpoint
      (LogSource.readFrom session.log session.sequencer.partition checkpoint.offset).1 with
    | error _ => exact .failLog failures checkpoint
    | ok counters => exact .rebuild failures checkpoint counters
  | installing counters => exact .install counters
  | backingOff failures wake =>
    dsimp only
    split_ifs with hwake
    · exact .wake failures wake hwake
    · rw [hrecovery]
      exact .stay _

theorem recovery_eq (session : Session β σ) (preference : Preference) :
    (session.recovery preference).calls = session.calls ∧
      (session.recovery preference).clock = session.clock ∧
      ∃ recovery counters status, (session.recovery preference).sequencer =
          { session.sequencer with recovery, counters, status } ∧
        (status = session.sequencer.status ∨
          recovery = .absent ∧ ∃ rebuilt, session.sequencer.recovery = .installing rebuilt) := by
  unfold Session.recovery
  cases hstep : session.sequencer.recoveryStep? session.clock preference session.store
    session.log with
  | none => exact ⟨rfl, rfl, _, _, _, rfl, Or.inl rfl⟩
  | some result =>
    obtain ⟨recovery, counters, status, heq, hstatus⟩ := recoveryStep_eq hstep
    exact ⟨rfl, rfl, recovery, counters, status, heq, hstatus.imp_right And.right⟩

/-- Without a recovery task nothing happens. -/
theorem recovery_of_absent (session : Session β σ) (habsent : session.sequencer.recovery = .absent)
    (preference : Preference) : session.recovery preference = session ∧
      session.recoveryAttempts (.act (.recovery preference)) = [] := by
  constructor
  · rw [Session.recovery, recoveryStep?, habsent]
  · rw [recoveryAttempts, habsent]

/-- Whoever is neither the worker nor the recovery task spares both. -/
theorem act_spares (session : Session β σ) {action : Action β σ} (hwork : action ≠ .work)
    (hrecovery : ∀ preference, action ≠ .recovery preference) :
    session.sequencer.Spares (session.act action).2.sequencer ∧
      session.clock ≤ (session.act action).2.clock := by
  cases action with
  | recover => exact ⟨(recover_move _).spares, le_rfl⟩
  | takeId sequence => exact ⟨(nextId_move _ sequence).spares, le_rfl⟩
  | finish => exact ⟨(finishEvent_move _).spares, le_rfl⟩
  | cancel => exact ⟨(cancelEvent_move _).spares, le_rfl⟩
  | invoke | exchange => exact ⟨.refl _, le_rfl⟩
  | wait milliseconds => exact ⟨.refl _, Nat.le_add_right _ _⟩
  | recovery preference => exact absurd rfl (hrecovery preference)
  | work => exact absurd rfl hwork
  | advance number preference =>
    unfold Session.act advance
    dsimp only
    split
    case h_1 call hcall =>
      cases hstep : session.sequencer.callStep? session.clock preference call with
      | none => exact ⟨.refl _, le_rfl⟩
      | some result => exact ⟨callStep_spares hstep, le_rfl⟩
    case h_2 => exact ⟨.refl _, le_rfl⟩

/-- Without calls and without a handle, only the worker and the recovery task can do anything. -/
theorem act_of_dropped {session : Session β σ} {action : Action β σ} (hcalls : session.calls = [])
    (hinternal : action.IsInternal) (hwork : action ≠ .work)
    (hrecovery : ∀ preference, action ≠ .recovery preference) :
    (session.act action).2.sequencer = session.sequencer ∧
      (session.act action).2.calls = [] := by
  cases action with
  | advance number preference =>
    unfold Session.act advance
    rw [hcalls]
    exact ⟨rfl, hcalls⟩
  | wait | exchange => exact ⟨rfl, hcalls⟩
  | recovery preference => exact absurd rfl (hrecovery preference)
  | work => exact absurd rfl hwork
  | _ => exact absurd hinternal not_false

/-! ### Attempts in a run -/

namespace Watch

def undergo (watch : Watch β σ) (occurrence : Occurrence β σ) : Watch β σ where
  session := watch.session.undergo occurrence
  writes := watch.session.writeAttempts occurrence ++ watch.writes
  recoveries := watch.session.recoveryAttempts occurrence ++ watch.recoveries

def run (watch : Watch β σ) (occurrences : List (Occurrence β σ)) : Watch β σ :=
  occurrences.foldl undergo watch

variable {config : Config} {IsDropped : Prop} {watch : Watch β σ}

omit [LogSource σ] in
theorem Keeps.work (h : watch.Keeps config IsDropped) :
    Keeps config IsDropped
      ⟨watch.session.work, watch.session.writeAttempts (.act .work) ++ watch.writes,
        watch.recoveries⟩ := by
  have hturn := watch.session.work_turn
  rw [h.configured] at hturn
  obtain ⟨hworker, hwrites⟩ := hturn.follows h.released h.steadfast h.worker h.writes
  have hsteadfast := hturn.isSteadfast h.steadfast
  have hsession : ∃ flusher store, watch.session.work = { watch.session with
      sequencer := { watch.session.sequencer with flusher }, store } := by
    rw [work_eq]
    split
    · exact ⟨_, _, rfl⟩
    · exact ⟨_, _, rfl⟩
  obtain ⟨flusher, store, hsession⟩ := hsession
  rw [hsession] at hworker hsteadfast ⊢
  exact ⟨h.configured, h.dropped, hwrites, hworker, hsteadfast, h.recoveries, h.recovery,
    h.isUnready⟩

/-- While a recovery goes on and after it has failed, the counters stay about to be rebuilt. -/
theorem Keeps.isUnready_recovery (h : watch.Keeps config IsDropped) {preference : Preference}
    (hafter : (watch.session.recovery preference).sequencer.recovery ≠ .absent ∨
      IsFailing () (watch.session.recoveryAttempts (.act (.recovery preference)) ++
        watch.recoveries)) :
    (watch.session.recovery preference).sequencer.IsUnready := by
  by_cases habsent : watch.session.sequencer.recovery = .absent
  · obtain ⟨hsame, hnothing⟩ := watch.session.recovery_of_absent habsent preference
    rw [hsame, hnothing] at hafter
    rw [hsame]
    exact h.isUnready hafter
  have hunready := h.isUnready (Or.inl habsent)
  obtain ⟨-, -, recovery, counters, status, hsequencer, hstatus⟩ :=
    watch.session.recovery_eq preference
  rw [hsequencer] at hafter ⊢
  rcases hstatus with rfl | ⟨rfl, rebuilt, hinstalling⟩
  · exact hunready
  · -- An attempt that has succeeded is not failing.
    have hnothing : watch.session.recoveryAttempts (.act (.recovery preference)) = [] := by
      rw [recoveryAttempts, hinstalling]
    have hfollows := h.recovery
    rw [hinstalling] at hfollows
    rw [hnothing] at hafter
    exact absurd (hafter.resolve_left (absurd rfl)) hfollows

theorem Keeps.recover (h : watch.Keeps config IsDropped) (preference : Preference) :
    Keeps config IsDropped
      ⟨watch.session.recovery preference, watch.writes,
        watch.session.recoveryAttempts (.act (.recovery preference)) ++ watch.recoveries⟩ := by
  have hturn := watch.session.recovery_turn preference
  rw [h.configured] at hturn
  obtain ⟨hrecovery, hrecoveries⟩ := hturn.follows h.recovery h.recoveries
  obtain ⟨hcalls, hclock, recovery, counters, status, hsequencer, -⟩ :=
    watch.session.recovery_eq preference
  have hstopping : (watch.session.recovery preference).signals.isStopping =
      watch.session.signals.isStopping := by rw [signals, hsequencer]; rfl
  have hreleased (hbefore : watch.session.signals.isReleased = true) :
      (watch.session.recovery preference).signals.isReleased = true := by
    have habsent : watch.session.sequencer.recovery = .absent :=
      (RecoveryTask.isAbsent_iff _).mp (Bool.and_eq_true_iff.mp hbefore).2
    rw [(watch.session.recovery_of_absent habsent preference).1]
    exact hbefore
  have hworker : (watch.session.recovery preference).sequencer.flusher.worker =
      watch.session.sequencer.flusher.worker := by rw [hsequencer]
  refine ⟨?_, ?_, h.writes, ?_, ?_, hrecoveries, hrecovery.mono hclock.ge hstopping.trans,
    h.isUnready_recovery⟩
  · rw [hsequencer]
    exact h.configured
  · rw [hcalls, hsequencer]
    exact h.dropped
  · rw [hworker]
    exact h.worker.mono hclock.ge (Or.imp hstopping.trans (And.imp_right hreleased))
  · rw [hworker]
    exact h.steadfast.mono hstopping.trans

omit [Backend β] [LogSource σ] in
theorem Keeps.spared (h : watch.Keeps config IsDropped) {after : Session β σ}
    (hspares : watch.session.sequencer.Spares after.sequencer)
    (hclock : watch.session.clock ≤ after.clock)
    (hdropped : after.sequencer.isDropped = true → after.calls = [] ∧ IsDropped)
    (hreleased : watch.session.signals.isReleased = true → after.signals.isReleased = true) :
    Keeps config IsDropped ⟨after, watch.writes, watch.recoveries⟩ := by
  have hworker : after.sequencer.flusher.worker.Follows config IsDropped after.signals
      watch.writes := by
    rw [hspares.worker]
    exact h.worker.mono hclock (Or.imp hspares.isStopping (And.imp_right hreleased))
  have hsteadfast : after.sequencer.flusher.worker.IsSteadfast after.signals watch.writes := by
    rw [hspares.worker]
    exact h.steadfast.mono hspares.isStopping
  have hrecovery : after.sequencer.recovery.Follows config after.signals watch.recoveries := by
    rcases hspares.recovery with hsame | ⟨hnew, hready, -⟩
    · rw [hsame]
      exact h.recovery.mono hclock hspares.isStopping
    · -- A new task cannot begin while the last one has failed.
      rw [hnew]
      exact Or.inl ⟨rfl, fun hfailing ↦ absurd (h.isUnready (Or.inr hfailing)) hready⟩
  refine ⟨hspares.config.trans h.configured, hdropped, h.writes, hworker, hsteadfast,
    h.recoveries, hrecovery, fun hafter ↦ ?_⟩
  rcases hspares.recovery with hsame | ⟨-, -, hunready⟩
  · rw [hsame] at hafter
    exact hspares.isUnready (h.isUnready hafter)
  · exact hunready

theorem Keeps.call (h : watch.Keeps config IsDropped) {action : Action β σ} (hwork : action ≠ .work)
    (hrecovery : ∀ preference, action ≠ .recovery preference)
    (hinternal : watch.session.sequencer.isDropped = true → action.IsInternal) :
    Keeps config IsDropped ⟨(watch.session.act action).2, watch.writes, watch.recoveries⟩ := by
  obtain ⟨hspares, hclock⟩ := watch.session.act_spares hwork hrecovery
  have hleft (hdropped : watch.session.sequencer.isDropped = true) :=
    act_of_dropped (h.dropped hdropped).1 (hinternal hdropped) hwork hrecovery
  refine h.spared hspares hclock (fun hafter ↦ ?_) (fun hreleased ↦ ?_)
  · have hdropped := hspares.isDropped.symm.trans hafter
    exact ⟨(hleft hdropped).2, (h.dropped hdropped).2⟩
  · have hsame := (hleft (Bool.and_eq_true_iff.mp hreleased).1).1
    exact (congrArg Sequencer.isReleased hsame).trans hreleased

theorem Keeps.drop (h : watch.Keeps config IsDropped) (hdropped : IsDropped) :
    (watch.undergo .drop).Keeps config IsDropped := by
  refine ⟨h.configured, fun _ ↦ ⟨rfl, hdropped⟩, h.writes, ?_, h.steadfast, h.recoveries, ?_,
    h.isUnready⟩
  · refine h.worker.mono le_rfl (Or.imp_right (And.imp_right fun hreleased ↦ ?_))
    exact (Bool.and_eq_true_iff.mp hreleased).2
  · exact h.recovery.mono le_rfl id

theorem Keeps.act (h : watch.Keeps config IsDropped) (action : Action β σ) :
    (watch.undergo (.act action)).Keeps config IsDropped := by
  by_cases hblocked : watch.session.sequencer.isDropped = true ∧ ¬ action.IsInternal
  · have hsame : watch.session.undergo (.act action) = watch.session := if_pos hblocked
    unfold Watch.undergo
    rw [hsame]
    cases action with
    | work | recovery => exact absurd trivial hblocked.2
    | _ => exact h
  have hact : watch.session.undergo (.act action) = (watch.session.act action).2 := if_neg hblocked
  have hinternal (hdropped : watch.session.sequencer.isDropped = true) : action.IsInternal :=
    not_not.mp fun hclient ↦ hblocked ⟨hdropped, hclient⟩
  unfold Watch.undergo
  rw [hact]
  cases action with
  | work => exact h.work
  | recovery preference => exact h.recover preference
  | _ => exact h.call nofun nofun hinternal

theorem Keeps.run (h : watch.Keeps config IsDropped) {occurrences : List (Occurrence β σ)}
    (hdrop : .drop ∈ occurrences → IsDropped) : (watch.run occurrences).Keeps config IsDropped := by
  induction occurrences generalizing watch with
  | nil => exact h
  | cons occurrence occurrences ih =>
    have hnext : (watch.undergo occurrence).Keeps config IsDropped := by
      cases occurrence with
      | act action => exact h.act action
      | drop => exact h.drop (hdrop List.mem_cons_self)
    exact ih hnext fun hlater ↦ hdrop (List.mem_cons_of_mem _ hlater)

/-! ### After the release -/

omit [LogSource σ] in
/-- Once nobody is left who could ask for a shutdown, the worker does not wait. -/
theorem retry_at_once {session : Session β σ} {batch : Batch} {failures wake : Nat}
    {error : StorageError} {left : β}
    (hworker : session.sequencer.flusher.worker = .backingOff batch failures wake)
    (hreleased : session.signals.isReleased = true)
    (hgoing : session.signals.isStopping = false)
    (hwrite : Checkpoint.putBatch session.store session.sequencer.partition batch.rows =
      (.error error, left)) :
    session.writeAttempts (.act .work) = [] ∧
      session.work.writeAttempts (.act .work) =
        [.failed batch (failures + 1) session.clock, .began batch failures session.signals] ∧
      ∃ wake, session.work.work = { session with
        sequencer := { session.sequencer with flusher := { session.sequencer.flusher with
          worker := .backingOff batch (failures + 1) wake } }
        store := left } := by
  have hretry : session.work = { session with
      sequencer := { session.sequencer with flusher := { session.sequencer.flusher with
        worker := .writing batch failures } } } := by
    rw [work_eq, Flusher.workerStep?, hworker]
    dsimp only
    rw [if_pos (Or.inr (Or.inr hreleased))]
  have hsignals : session.work.signals = session.signals := by
    rw [hretry]
    rfl
  refine ⟨?_, ?_, ?_⟩
  · rw [writeAttempts, hworker]
  · rw [← hsignals, hretry, writeAttempts]
    dsimp only
    rw [hwrite]
  · refine ⟨session.clock + session.sequencer.config.retryDelay (failures + 1), ?_⟩
    rw [work_eq session.work, hsignals, hretry, Flusher.workerStep?]
    dsimp only
    rw [hwrite]
    dsimp only
    rw [if_neg (Bool.eq_false_iff.mp hgoing)]
    rfl

/-- So many writes of these rows fail, one after another. -/
def FailsWrites (partition : PartitionId) (rows : List CheckpointRow) : (count : Nat) → β → Prop
  | 0, _ => True
  | count + 1, store => ∃ error after,
    Checkpoint.putBatch store partition rows = (.error error, after) ∧
      FailsWrites partition rows count after

/-- So many attempts that fail, all at the same time. -/
def hurried (batch : Batch) (signals : Flusher.Signals) :
    (failures count : Nat) → List (AttemptEvent Batch)
  | _, 0 => []
  | failures, count + 1 => hurried batch signals (failures + 1) count ++
    [.failed batch (failures + 1) signals.now, .began batch failures signals]

theorem run_hurried {batch : Batch} {count : Nat} {failures wake : Nat}
    (hworker : watch.session.sequencer.flusher.worker = .backingOff batch failures wake)
    (hreleased : watch.session.signals.isReleased = true)
    (hgoing : watch.session.signals.isStopping = false)
    (hfails : FailsWrites watch.session.sequencer.partition batch.rows count watch.session.store) :
    (watch.run (List.replicate (2 * count) (.act .work))).writes =
      hurried batch watch.session.signals failures count ++ watch.writes := by
  induction count generalizing watch failures wake with
  | zero => rfl
  | succ count ih =>
    obtain ⟨error, left, hwrite, hlater⟩ := hfails
    obtain ⟨hnothing, hattempt, wake, hagain⟩ := retry_at_once hworker hreleased hgoing hwrite
    have hundergo (watch : Watch β σ) : watch.undergo (.act .work) =
        ⟨watch.session.work, watch.session.writeAttempts (.act .work) ++ watch.writes,
          watch.recoveries⟩ := by
      have hwork : watch.session.undergo (.act .work) = watch.session.work :=
        if_neg fun hblocked ↦ hblocked.2 trivial
      unfold Watch.undergo
      rw [hwork]
      rfl
    let next : Watch β σ :=
      ⟨{ watch.session with
          sequencer := { watch.session.sequencer with
            flusher := { watch.session.sequencer.flusher with
              worker := .backingOff batch (failures + 1) wake } }
          store := left },
        [.failed batch (failures + 1) watch.session.clock,
          .began batch failures watch.session.signals] ++ watch.writes, watch.recoveries⟩
    have htwice : (watch.undergo (.act .work)).undergo (.act .work) = next := by
      rw [hundergo, hundergo, hnothing, hattempt, hagain]
      rfl
    have hrun : watch.run (List.replicate (2 * (count + 1)) (.act .work)) =
        ((watch.undergo (.act .work)).undergo (.act .work)).run
          (List.replicate (2 * count) (.act .work)) := rfl
    have hrest : (next.run (List.replicate (2 * count) (.act .work))).writes =
        hurried batch next.session.signals (failures + 1) count ++ next.writes :=
      ih rfl hreleased hgoing hlater
    rw [hrun, htwice, hrest, hurried, List.append_assoc]
    rfl

/-- Attempts to recover are always paced, and so are attempts to write unless a shutdown has been
requested or the sequencer has been dropped. But once it is released the worker tries again at once,
for as long as the writes fail. -/
theorem attempts_paced (store : β) (log : σ) (partition : PartitionId) (config : Config)
    (occurrences : List (Occurrence β σ)) :
    let watch := (start store log partition config).run occurrences
    Paced config (fun _ ↦ False) watch.recoveries ∧
      Paced config (Worker.IsExcused (.drop ∈ occurrences)) watch.writes ∧
      ∀ batch failures wake,
        watch.session.sequencer.flusher.worker = .backingOff batch failures wake →
        watch.session.signals.isReleased = true → watch.session.signals.isStopping = false →
        ∀ count, FailsWrites watch.session.sequencer.partition batch.rows count
          watch.session.store →
          (watch.run (List.replicate (2 * count) (.act .work))).writes =
            hurried batch watch.session.signals failures count ++ watch.writes := by
  intro watch
  have hkeeps : watch.Keeps config (.drop ∈ occurrences) :=
    (keeps_start store log partition config _).run id
  exact ⟨hkeeps.recoveries, hkeeps.writes, fun _ _ _ hworker hreleased hgoing _ hfails ↦
    run_hurried hworker hreleased hgoing hfails⟩

/-- The batch of one event cannot be written, and the sequencer is dropped. -/
def desertion : List (Occurrence (Faulty Rows) MemoryLog) :=
  let actions : List (Action (Faulty Rows) MemoryLog) :=
    .recover :: List.replicate 6 (.recovery .progress) ++
      [.exchange (Faulty.ofBackend ∅).failForever .empty, .invoke (.start ⟨10⟩ 0),
        .advance 0 .progress, .advance 0 .progress, .finish, .work, .work]
  actions.map .act ++ [.drop]

/-- What the event leaves to be written. -/
def desertedBatch : Batch := Batch.empty.merge ⟨⟨1⟩, ⟨10⟩, ⟨1⟩, .null, .null⟩

/-- The sequencer after that. -/
def deserted : Watch (Faulty Rows) MemoryLog :=
  (start (Faulty.ofBackend ∅) .empty ⟨1⟩ { Config.default with flushThreshold := 1 }).run desertion

/-- No time passes and nobody asks for a shutdown, and yet the batch is tried again, and again. -/
theorem deserted_hurried :
    let after := deserted.run (List.replicate 4 (.act .work))
    after.writes =
        [.failed desertedBatch 3 0, .began desertedBatch 2 ⟨0, false, true⟩,
          .failed desertedBatch 2 0, .began desertedBatch 1 ⟨0, false, true⟩,
          .failed desertedBatch 1 0, .began desertedBatch 0 ⟨0, false, false⟩] ∧
      ¬ Paced { Config.default with flushThreshold := 1 } (·.isStopping = true) after.writes := by
  intro after
  obtain ⟨-, -, hhurried⟩ := attempts_paced (Faulty.ofBackend ∅) MemoryLog.empty ⟨1⟩
    { Config.default with flushThreshold := 1 } desertion
  have hworker : deserted.session.sequencer.flusher.worker = .backingOff desertedBatch 1 5 := by
    decide +kernel
  have hsignals : deserted.session.signals = ⟨0, false, true⟩ := by decide +kernel
  have hbefore : deserted.writes =
      [.failed desertedBatch 1 0, .began desertedBatch 0 ⟨0, false, false⟩] := by decide +kernel
  have hstore : deserted.session.store = (Faulty.ofBackend ∅).failForever := rfl
  have hfails : FailsWrites deserted.session.sequencer.partition desertedBatch.rows 2
      deserted.session.store :=
    hstore ▸ ⟨.injected .batch, _, rfl, .injected .batch, _, rfl, trivial⟩
  have hafter : after.writes =
      hurried desertedBatch deserted.session.signals 1 2 ++ deserted.writes :=
    hhurried desertedBatch 1 5 hworker (congrArg Flusher.Signals.isReleased hsignals)
      (congrArg Flusher.Signals.isStopping hsignals) 2 hfails
  rw [hsignals, hbefore] at hafter
  refine ⟨hafter, fun hpaced ↦ ?_⟩
  rw [hafter] at hpaced
  -- The third attempt begins at the time of the second failure.
  cases hpaced with
  | fail _ _ hbegan =>
    cases hbegan with
    | retry _ hwaited => exact absurd hwaited (by decide)

end Watch

end Session

end Sequencer

end LogSequencing
