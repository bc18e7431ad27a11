import LogSequencing.Proofs.Life
import LogSequencing.Proofs.Log.Memory

/-!
# What can happen in a life

The outline of a life leaves out the clock, the failures to come, and who waits for what. `Move` and
`Lapse` say once what an action can do to it (`act_moves`, `act_lapses`); invariants of lives are
proved move by move.
-/

set_option autoImplicit false
set_option relaxedAutoImplicit false

namespace LogSequencing

/-- The counters that a recovery has in hand. -/
def RecoveryTask.holds? : RecoveryTask → Option Counters
  | readingLog _ counters | installing counters => some counters
  | _ => none

/-- What matters of a life for its counters. -/
structure Outline where
  rows : Rows
  events : List Event
  status : Status
  counters : Counters
  /-- The workspace of the event in progress. -/
  workspace : WorkspaceId
  recovery : RecoveryTask
  isStopping : Bool
  draft? : Option Draft
  pending : Batch
  /-- The batches handed off that the worker is not yet through with. -/
  carried : List Batch
  active : Bool
  settled : List (Batch × Fate)

namespace Outline

/-- The counters are to be rebuilt. -/
def reopened (o : Outline) : Outline := { o with status := .recovering, recovery := .checking 0 }

/-- The event in progress is over, and the pending batch has what it left. -/
def finished (o : Outline) : Outline :=
  { o with
    status := .ready
    draft? := none
    pending := o.pending.merge (o.counters.leaving o.workspace) }

/-- The pending batch has been handed off. -/
def sent (o : Outline) : Outline :=
  { o with pending := .empty, carried := [o.pending], active := true }

/-- A new sequencer has taken over. -/
def restarted (o : Outline) : Outline :=
  { o with
    status := .created, counters := .empty, workspace := .null, recovery := .absent,
    isStopping := false, draft? := none, pending := .empty, carried := [], active := false,
    settled := [] }

/-- The counters that a replay of the log on a checkpoint comes to. -/
def replayed (o : Outline) (checkpoint : Counters) : Counters :=
  checkpoint.observeAll (o.events.filter (checkpoint.offset ≤ ·.offset))

end Outline

/-- What an orderly action can do. -/
inductive Move (partition : PartitionId) (o : Outline) : Outline → Prop where
  | stay : Move partition o o
  | begin (hstatus : o.status = .created) : Move partition o o.reopened
  /-- No offset is left in the log of the partition. -/
  | refuse (workspace : WorkspaceId) (hstatus : o.status = .ready) :
      Move partition o { o with workspace }
  /-- No offset is left in the log of the workspace, which is noticed too late. -/
  | overrun (workspace : WorkspaceId) (offset : Offset) (hstatus : o.status = .ready)
      (hoffset : o.counters.offset.next? = some offset)
      (hlast : (o.counters.workspaceOffset workspace).next? = none) :
      Move partition o { o with workspace, counters := { o.counters with offset } }
  | reserve (workspace : WorkspaceId) (offset last : Offset) (hstopping : o.isStopping = false)
      (hstatus : o.status = .ready) (hoffset : o.counters.offset.next? = some offset)
      (hlast : (o.counters.workspaceOffset workspace).next? = some last) :
      Move partition o { o with
        workspace
        status := .eventing
        counters := { o.counters with
          offset, workspaceOffsets := o.counters.workspaceOffsets.insert workspace last }
        draft? := some ⟨⟨offset, workspace, last, []⟩, false⟩ }
  | takeId (sequence : IdSequence) (id : RecordId) (usage : Usage)
      (hdraft : o.draft? = some ⟨usage, false⟩)
      (hid : (o.counters.lastId sequence o.workspace).next? = some id) :
      Move partition o { o with
        counters := o.counters.setIds sequence ((o.counters.ids sequence).insert o.workspace id)
        draft? := some ⟨{ usage with ids := usage.ids ++ [(sequence, id)] }, false⟩ }
  | commit (event : Event) (usage : Usage) (hdraft : o.draft? = some ⟨usage, false⟩)
      (hfits : event.Fits usage) :
      Move partition o { o with
        events := o.events ++ [event]
        draft? := some ⟨usage, true⟩ }
  | finish (usage : Usage) (hstopping : o.isStopping = false)
      (hdraft : o.draft? = some ⟨usage, true⟩) : Move partition o o.finished
  | finishAndSend (usage : Usage) (hstopping : o.isStopping = false)
      (hdraft : o.draft? = some ⟨usage, true⟩) (hactive : o.active = false) :
      Move partition o o.finished.sent
  | cancel (usage : Usage) (hdraft : o.draft? = some ⟨usage, false⟩) :
      Move partition o { o.reopened with draft? := none }
  /-- The recovery task goes on without having read anything. -/
  | wander (recovery : RecoveryTask) (hrecovery : o.recovery.isAbsent = false)
      (hidle : recovery.holds? = none) : Move partition o { o with recovery }
  | clear (failures : Nat) (hrecovery : o.recovery.isAbsent = false) :
      Move partition o { o with counters := .empty, recovery := .readingCheckpoint failures }
  | readCheckpoint (failures : Nat) (checkpoint : Counters)
      (hrecovery : o.recovery = .readingCheckpoint failures)
      (hread : (Checkpoint.readPartition o.rows partition).1 = .ok checkpoint) :
      Move partition o { o with recovery := .readingLog failures checkpoint }
  | readLog (failures : Nat) (checkpoint : Counters)
      (hrecovery : o.recovery = .readingLog failures checkpoint) :
      Move partition o { o with recovery := .installing (o.replayed checkpoint) }
  | install (counters : Counters) (hrecovery : o.recovery = .installing counters) :
      Move partition o { o with counters, status := .ready, recovery := .absent }
  | land (batch : Batch) (hcarried : o.carried = [batch]) :
      Move partition o { o with
        rows := o.rows.insertAll (batch.rows.map (Checkpoint.storedRow partition))
        carried := []
        settled := o.settled ++ [(batch, .landed)] }
  | abandon (batch : Batch) (hstopping : o.isStopping = true) (hcarried : o.carried = [batch]) :
      Move partition o { o with carried := [], settled := o.settled ++ [(batch, .abandoned)] }
  | lower (hcarried : o.carried = []) : Move partition o { o with active := false }
  | stop (hstatus : o.status ≠ .eventing) : Move partition o { o with isStopping := true }
  | send (hstopping : o.isStopping = true) (hcount : o.pending.count ≠ 0)
      (hactive : o.active = false) : Move partition o o.sent
  | retire (hstopping : o.isStopping = true) : Move partition o { o with status := .finished }

/-- What an action can do that is not orderly. -/
inductive Lapse (o : Outline) : Outline → Prop where
  | crash : Lapse o o.restarted
  | cancelCommitted (usage : Usage) (hdraft : o.draft? = some ⟨usage, true⟩) :
      Lapse o { o.reopened with draft? := none }

/-- A shutdown has come so far that it has closed the flusher. -/
def Stage.HasClosed : Stage → Prop
  | stopping .awaitingWorker | stopping .finishing | stopped => True
  | _ => False

namespace Life

variable {β : Type} [Backend β] [LawfulBackend β]

def outline (life : Life β) : Outline where
  rows := life.store.rows
  events := life.events
  status := life.sequencer.status
  counters := life.sequencer.counters
  workspace := life.sequencer.workspace
  recovery := life.sequencer.recovery
  isStopping := life.sequencer.isStopping
  draft? := life.draft?
  pending := life.sequencer.flusher.pending
  carried := life.sequencer.flusher.carried
  active := life.sequencer.flusher.active
  settled := life.settled

/-- How the stage of a life goes together with its sequencer. -/
structure Sound (life : Life β) : Prop where
  flusher : life.sequencer.flusher.Sound
  held : life.sequencer.isDropped = false
  serving_iff : life.stage = .serving ↔ life.sequencer.isStopping = false
  isOpen : ¬ life.stage.HasClosed → life.sequencer.flusher.isOpen = true

/-- One life follows from another by a move. -/
structure Follows (life after : Life β) : Prop where
  partition : after.partition = life.partition
  sound : after.Sound
  move : Move life.partition life.outline after.outline

variable {life : Life β}

theorem Sound.stay (h : life.Sound) : Follows life life := ⟨rfl, h, .stay⟩

/-! ### The client -/

theorem Sound.recover (h : life.Sound) : Follows life life.recover := by
  rw [Life.recover, Sequencer.recover, Sequencer.guarded]
  split_ifs with hstatus
  · exact ⟨rfl, ⟨h.flusher, h.held, h.serving_iff, h.isOpen⟩, .begin hstatus⟩
  · exact h.stay

/-- A caller that reserves no offsets changes nothing. -/
theorem Sound.idleCall (h : life.Sound) {progress : Progress}
    (hprogress : ∀ offsets, progress ≠ .ended (.started (some offsets))) :
    Follows life { life with
      draft? := life.draftAfter? life.sequencer.workspace progress } := by
  have hdraft : life.draftAfter? life.sequencer.workspace progress = life.draft? := by
    rw [draftAfter?.eq_2]
    exact fun offset workspaceOffset ↦ hprogress (offset, workspaceOffset)
  rw [hdraft]
  exact h.stay

theorem Sound.reserve (h : life.Sound) (hserving : life.stage = .serving)
    (workspace : WorkspaceId) :
    Follows life { life with
      sequencer := (life.sequencer.reserve workspace).2
      draft? := life.draftAfter? (life.sequencer.reserve workspace).2.workspace
        (life.sequencer.reserve workspace).1 } := by
  have hsound := h
  obtain ⟨hflusher, hheld, hiff, hopen⟩ := h
  unfold Sequencer.reserve
  cases hstatus : life.sequencer.status with
  | ready =>
    simp only [Sequencer.takeOffsets]
    cases hoffset : life.sequencer.counters.offset.next? with
    | none => exact ⟨rfl, ⟨hflusher, hheld, hiff, hopen⟩, .refuse workspace hstatus⟩
    | some offset =>
      simp only [Sequencer.takeWorkspaceOffset]
      cases hlast : (life.sequencer.counters.workspaceOffset workspace).next? with
      | none =>
        have hlast' : (Counters.workspaceOffset { life.sequencer.counters with offset }
          workspace).next? = none := hlast
        simp only [hlast']
        exact ⟨rfl, ⟨hflusher, hheld, hiff, hopen⟩, .overrun workspace offset hstatus hoffset hlast⟩
      | some last =>
        have hlast' : (Counters.workspaceOffset { life.sequencer.counters with offset }
          workspace).next? = some last := hlast
        simp only [hlast']
        exact ⟨rfl, ⟨hflusher, hheld, hiff, hopen⟩,
          .reserve workspace offset last (hiff.mp hserving) hstatus hoffset hlast⟩
  | recovering | finished | created | eventing => exact hsound.idleCall nofun

theorem Sound.call (h : life.Sound) (hserving : life.stage = .serving) (preference : Preference)
    (call : Call) : Follows life (life.call preference call) := by
  cases call with
  | start workspace patience =>
    refine h.idleCall fun offsets ↦ ?_
    unfold Sequencer.beginStart
    split_ifs <;> nofun
  | awaitingStart workspace deadline =>
    rw [Life.call, Sequencer.callStep?, Sequencer.continueStart?]
    · split_ifs
      · exact h.idleCall nofun
      · exact h.idleCall nofun
      · exact h.idleCall nofun
      · exact h.stay
    · nofun
  | reserving workspace => exact h.reserve hserving workspace
  | awaitReady patience =>
    rw [Life.call, Sequencer.callStep?]
    · split_ifs
      · exact h.idleCall nofun
      · exact h.idleCall nofun
    · nofun
  | awaitingReady deadline =>
    rw [Life.call, Sequencer.callStep?, Sequencer.continueReady?]
    · split_ifs
      · exact h.idleCall nofun
      · exact h.idleCall nofun
      · exact h.stay
    · nofun
  | shutdown phase => exact h.stay

theorem Sound.takeId (h : life.Sound) (sequence : IdSequence) :
    Follows life (life.takeId sequence) := by
  unfold Life.takeId
  split
  case h_1 usage hdraft =>
    rw [Sequencer.nextId, Sequencer.guarded]
    split_ifs
    · cases hid : (life.sequencer.counters.lastId sequence life.sequencer.workspace).next? with
      | none => exact h.stay
      | some id =>
        exact ⟨rfl, ⟨h.flusher, h.held, h.serving_iff, h.isOpen⟩,
          .takeId sequence id usage hdraft hid⟩
    · exact h.stay
  case h_2 => exact h.stay

theorem Sound.commit (h : life.Sound) (event : Event) : Follows life (life.commit event) := by
  unfold Life.commit
  split
  case h_1 usage hdraft =>
    split_ifs with hfits
    · cases happend : life.log.append life.partition event with
      | error error => exact h.stay
      | ok log =>
        refine ⟨rfl, ⟨h.flusher, h.held, h.serving_iff, h.isOpen⟩, ?_⟩
        have hmove : Move life.partition life.outline _ := .commit event usage hdraft hfits
        have hevents : log.events life.partition = life.outline.events ++ [event] :=
          (MemoryLog.append_ok happend).2
        rw [← hevents] at hmove
        exact hmove
    · exact h.stay
  case h_2 => exact h.stay

theorem Sound.finish (h : life.Sound) (hserving : life.stage = .serving) :
    Follows life life.finish := by
  have hstopping := h.serving_iff.mp hserving
  have hopen : life.sequencer.flusher.isOpen = true := h.isOpen (hserving ▸ nofun)
  unfold Life.finish
  split
  case h_1 usage hdraft =>
    rw [Sequencer.finishEvent, Sequencer.guarded]
    split_ifs
    · have hmerged : Flusher.Sound { life.sequencer.flusher with
          pending := life.sequencer.flusher.pending.merge life.sequencer.finishedEvent } :=
        ⟨h.flusher.1, h.flusher.2, h.flusher.3, h.flusher.4⟩
      simp only [letGo, Flusher.collect]
      split_ifs with hdue
      · have hactive := Bool.eq_false_iff.mpr hdue.2
        rw [hmerged.handOff_eq hopen hactive]
        refine ⟨rfl, ⟨hmerged.send hopen hactive, h.held, h.serving_iff, h.isOpen⟩, ?_⟩
        have hmove : Move life.partition life.outline _ :=
          .finishAndSend usage hstopping hdraft hactive
        rw [Outline.sent, ← hmerged.carried_send hactive] at hmove
        exact hmove
      · exact ⟨rfl, ⟨hmerged, h.held, h.serving_iff, h.isOpen⟩, .finish usage hstopping hdraft⟩
    · exact h.stay
  case h_2 => exact h.stay

theorem Sound.cancel (h : life.Sound) : Follows life (life.cancel false) := by
  unfold Life.cancel
  split
  case h_1 draft hdraft =>
    obtain ⟨usage, isCommitted⟩ := draft
    split_ifs with huncommitted
    · obtain rfl : isCommitted = false := huncommitted
      rw [Sequencer.cancelEvent, Sequencer.guarded]
      split_ifs
      · exact ⟨rfl, ⟨h.flusher, h.held, h.serving_iff, h.isOpen⟩, .cancel usage hdraft⟩
      · exact h.stay
    · exact h.stay
  case h_2 => exact h.stay

/-! ### Everybody else -/

omit [Backend β] [LawfulBackend β] in
/-- A shutdown that has been requested goes on from one stage to another. -/
theorem Sound.proceed (h : life.Sound) (hstage : life.stage ≠ .serving) {stage : Stage}
    (hnext : stage ≠ .serving) (hclosed : ¬ stage.HasClosed → ¬ life.stage.HasClosed) :
    Sound { life with stage } where
  flusher := h.flusher
  held := h.held
  serving_iff := iff_of_false hnext (h.serving_iff.not.mp hstage)
  isOpen hstage := h.isOpen (hclosed hstage)

theorem Sound.request (h : life.Sound) (hopen : ¬ life.stage.HasClosed) :
    Follows life (life.shutdownFrom .requesting) := by
  rw [Life.shutdownFrom, Sequencer.shutdownStep?]
  split_ifs with hstatus
  · exact h.stay
  · exact ⟨rfl, ⟨h.flusher, h.held, iff_of_false nofun nofun, fun _ ↦ h.isOpen hopen⟩,
      .stop hstatus⟩

/-- The last batch is handed off, unless a flush is in flight again. -/
theorem Sound.sendLast (h : life.Sound) (hstage : life.stage = .stopping .handingOff) :
    Follows life (life.shutdownFrom .handingOff) := by
  have hserving : life.stage ≠ .serving := hstage ▸ nofun
  have hstopping : life.sequencer.isStopping = true :=
    eq_true_of_ne_false (h.serving_iff.not.mp hserving)
  have hopen : life.sequencer.flusher.isOpen = true := h.isOpen (hstage ▸ not_false)
  have hproceed : ∀ phase, ¬ (Stage.stopping phase).HasClosed →
      Sound { life with stage := .stopping phase } := fun phase hphase ↦
    h.proceed hserving nofun fun _ ↦ hstage ▸ not_false
  simp only [Life.shutdownFrom, Sequencer.shutdownStep?]
  by_cases hcount : life.sequencer.flusher.pending.count = 0
  · rw [Flusher.tryHandOff, if_pos hcount]
    exact ⟨rfl, hproceed .draining not_false, .stay⟩
  · by_cases hactive : life.sequencer.flusher.active
    · rw [Flusher.tryHandOff, if_neg hcount, if_pos hactive]
      exact ⟨rfl, hproceed .awaitingFlush not_false, .stay⟩
    · have hdown := Bool.eq_false_iff.mpr hactive
      have hsound := hproceed .draining not_false
      rw [Flusher.tryHandOff, if_neg hcount, if_neg hactive, h.flusher.handOff_eq hopen hdown]
      refine ⟨rfl, ⟨h.flusher.send hopen hdown, hsound.held, hsound.serving_iff, fun _ ↦ hopen⟩, ?_⟩
      have hmove : Move life.partition life.outline _ := .send hstopping hcount hdown
      rw [Outline.sent, ← h.flusher.carried_send hdown] at hmove
      exact hmove

theorem Sound.shutdown (h : life.Sound) : Follows life life.shutdown := by
  unfold Life.shutdown
  cases hstage : life.stage with
  | serving => exact h.request (hstage ▸ not_false)
  | stopped => exact h.stay
  | stopping phase =>
    have hserving : life.stage ≠ .serving := hstage ▸ nofun
    have hproceed : ∀ next : Stage, next ≠ .serving →
        (¬ next.HasClosed → ¬ (Stage.stopping phase).HasClosed) →
        Follows life { life with stage := next } := fun next hnext hclosed ↦
      ⟨rfl, h.proceed hserving hnext (hstage ▸ hclosed), .stay⟩
    cases phase with
    | requesting => exact h.request (hstage ▸ not_false)
    | claimingRecovery =>
      simp only [Life.shutdownFrom, Sequencer.shutdownStep?]
      split_ifs
      · obtain ⟨_, hsound, hmove⟩ := hproceed (.stopping (.awaitingRecovery
          life.sequencer.recoveries)) nofun fun _ ↦ not_false
        exact ⟨rfl, ⟨hsound.flusher, hsound.held, hsound.serving_iff, hsound.isOpen⟩, hmove⟩
      · exact hproceed (.stopping .awaitingFlush) nofun fun _ ↦ not_false
    | awaitingRecovery number =>
      simp only [Life.shutdownFrom, Sequencer.shutdownStep?]
      split_ifs
      · exact hproceed (.stopping .awaitingFlush) nofun fun _ ↦ not_false
      · exact h.stay
    | awaitingFlush =>
      simp only [Life.shutdownFrom, Sequencer.shutdownStep?]
      split_ifs
      · exact h.stay
      · exact hproceed (.stopping .handingOff) nofun fun _ ↦ not_false
    | handingOff => exact h.sendLast hstage
    | draining =>
      simp only [Life.shutdownFrom, Sequencer.shutdownStep?]
      split_ifs
      · exact h.stay
      · exact hproceed (.stopping .closing) nofun fun _ ↦ not_false
    | closing =>
      have hclosed : Flusher.Sound { life.sequencer.flusher with
          isOpen := false, workerUnclaimed := false } :=
        ⟨h.flusher.1, h.flusher.2, h.flusher.3, fun _ ↦ rfl⟩
      simp only [Life.shutdownFrom, Sequencer.shutdownStep?]
      split_ifs
      · obtain ⟨_, hsound, hmove⟩ := hproceed (.stopping .awaitingWorker) nofun
          fun h ↦ absurd trivial h
        exact ⟨rfl, ⟨hclosed, hsound.held, hsound.serving_iff, fun h ↦ absurd trivial h⟩, hmove⟩
      · obtain ⟨_, hsound, hmove⟩ := hproceed (.stopping .finishing) nofun
          fun h ↦ absurd trivial h
        exact ⟨rfl, ⟨hclosed, hsound.held, hsound.serving_iff, fun h ↦ absurd trivial h⟩, hmove⟩
    | awaitingWorker =>
      simp only [Life.shutdownFrom, Sequencer.shutdownStep?]
      split_ifs
      · exact hproceed (.stopping .finishing) nofun fun h ↦ absurd trivial h
      · exact h.stay
    | finishing =>
      obtain ⟨_, hsound, -⟩ := hproceed .stopped nofun fun h ↦ absurd trivial h
      exact ⟨rfl, ⟨hsound.flusher, hsound.held, hsound.serving_iff, hsound.isOpen⟩,
        .retire (eq_true_of_ne_false (h.serving_iff.not.mp hserving))⟩

/-- The failures to come are not in the outline. -/
theorem Follows.behindFailures {sequencer : Sequencer} (h : Follows life { life with sequencer })
    {store : Faulty β} (hstore : store.rows = life.store.rows) {log : MemoryLog}
    (hlog : log.partitions = life.log.partitions) :
    Follows life { life with sequencer, store, log } := by
  refine ⟨h.partition, ⟨h.sound.flusher, h.sound.held, h.sound.serving_iff, h.sound.isOpen⟩, ?_⟩
  have hevents : log.events sequencer.partition = life.log.events sequencer.partition := by
    rw [MemoryLog.events, MemoryLog.events, hlog]
  have hmove := h.move
  simp only [outline, Life.events, Life.partition] at hmove ⊢
  rw [hstore, hevents]
  exact hmove

/-- The recovery task goes on and has nothing in hand. -/
theorem Sound.wander (h : life.Sound) {recovery : RecoveryTask}
    (hrunning : life.sequencer.recovery.isAbsent = false) (hidle : recovery.holds? = none) :
    Follows life { life with sequencer := { life.sequencer with recovery } } :=
  ⟨rfl, ⟨h.flusher, h.held, h.serving_iff, h.isOpen⟩, .wander recovery hrunning hidle⟩

theorem Sound.readCheckpoint (h : life.Sound) {failures : Nat}
    (hrecovery : life.sequencer.recovery = .readingCheckpoint failures)
    (preference : Preference) : Follows life (life.recovery preference) := by
  have hrunning : life.sequencer.recovery.isAbsent = false := by rw [hrecovery]; rfl
  obtain ⟨store, hstore, hfail | hread⟩ :=
    Checkpoint.readPartition_cases life.store life.sequencer.partition
  · obtain ⟨error, -, hfail⟩ := hfail
    simp only [Life.recovery, Sequencer.recoveryStep?, hrecovery, hfail]
    exact (h.wander hrunning rfl).behindFailures hstore rfl
  · cases hresult : (Checkpoint.readPartition life.store.rows life.sequencer.partition).1 with
    | error error =>
      rw [hresult] at hread
      simp only [Life.recovery, Sequencer.recoveryStep?, hrecovery, hread]
      exact (h.wander hrunning rfl).behindFailures hstore rfl
    | ok checkpoint =>
      rw [hresult] at hread
      simp only [Life.recovery, Sequencer.recoveryStep?, hrecovery, hread]
      have hfollows : Follows life { life with sequencer := { life.sequencer with
          recovery := .readingLog failures checkpoint } } :=
        ⟨rfl, ⟨h.flusher, h.held, h.serving_iff, h.isOpen⟩,
          .readCheckpoint failures checkpoint hrecovery hresult⟩
      exact hfollows.behindFailures hstore rfl

theorem Sound.readLog (h : life.Sound) {failures : Nat} {checkpoint : Counters}
    (hrecovery : life.sequencer.recovery = .readingLog failures checkpoint)
    (preference : Preference) : Follows life (life.recovery preference) := by
  have hrunning : life.sequencer.recovery.isAbsent = false := by rw [hrecovery]; rfl
  obtain ⟨log, hlog, ⟨error, -, hfail⟩ | hread⟩ :=
    MemoryLog.readFrom_cases life.log life.sequencer.partition checkpoint.offset
  · simp only [Life.recovery, Sequencer.recoveryStep?, hrecovery, hfail, Reading.failed,
      Checkpoint.observeReading]
    exact (h.wander hrunning rfl).behindFailures rfl hlog
  · simp only [Life.recovery, Sequencer.recoveryStep?, hrecovery, hread, Checkpoint.observeReading]
    have hfollows : Follows life { life with sequencer := { life.sequencer with
        recovery := .installing (life.outline.replayed checkpoint) } } :=
      ⟨rfl, ⟨h.flusher, h.held, h.serving_iff, h.isOpen⟩, .readLog failures checkpoint hrecovery⟩
    exact hfollows.behindFailures rfl hlog

theorem leaveWait?_cases (s : Sequencer) (failures : Nat) (preference : Preference) :
    s.leaveWait? failures preference = none ∨ ∃ recovery, recovery.holds? = none ∧
      s.leaveWait? failures preference = some { s with recovery } := by
  unfold Sequencer.leaveWait?
  split
  · exact Or.inl rfl
  · exact Or.inr ⟨.clearing failures, rfl, rfl⟩
  · exact Or.inr ⟨.checking failures, rfl, rfl⟩
  · exact Or.inr ⟨.clearing failures, rfl, rfl⟩
  · exact Or.inr ⟨.checking failures, rfl, rfl⟩

theorem Sound.recovery (h : life.Sound) (preference : Preference) :
    Follows life (life.recovery preference) := by
  cases hrecovery : life.sequencer.recovery with
  | absent =>
    simp only [Life.recovery, Sequencer.recoveryStep?, hrecovery]
    exact h.stay
  | checking failures =>
    simp only [Life.recovery, Sequencer.recoveryStep?, hrecovery]
    refine h.wander (by rw [hrecovery]; rfl) ?_
    split_ifs <;> rfl
  | awaitingFlusher failures =>
    simp only [Life.recovery, Sequencer.recoveryStep?, hrecovery]
    rcases leaveWait?_cases life.sequencer failures preference with hwait | ⟨recovery, hidle, hleave⟩
    · rw [hwait]
      exact h.stay
    · rw [hleave]
      exact h.wander (by rw [hrecovery]; rfl) hidle
  | clearing failures =>
    simp only [Life.recovery, Sequencer.recoveryStep?, hrecovery]
    exact ⟨rfl, ⟨h.flusher, h.held, h.serving_iff, h.isOpen⟩,
      .clear failures (by rw [outline, hrecovery]; rfl)⟩
  | readingCheckpoint failures => exact h.readCheckpoint hrecovery preference
  | readingLog failures checkpoint => exact h.readLog hrecovery preference
  | installing counters =>
    simp only [Life.recovery, Sequencer.recoveryStep?, hrecovery]
    exact ⟨rfl, ⟨h.flusher, h.held, h.serving_iff, h.isOpen⟩, .install counters hrecovery⟩
  | backingOff failures wake =>
    simp only [Life.recovery, Sequencer.recoveryStep?, hrecovery]
    split_ifs
    · exact h.wander (by rw [hrecovery]; rfl) rfl
    · exact h.stay

omit [LawfulBackend β] in
theorem settling_of_landing {batch : Batch} {failures : Nat} {store : Faulty β}
    (hworker : life.sequencer.flusher.worker = .writing batch failures)
    (hwrite : Checkpoint.putBatch life.store life.partition batch.rows = (.ok (), store)) :
    life.settling = [(batch, .landed)] := by
  simp only [settling, hworker, hwrite]

omit [LawfulBackend β] in
theorem settling_of_abandoning {batch : Batch} {failures : Nat} {error : StorageError}
    {store : Faulty β} (hstopping : life.sequencer.isStopping = true)
    (hworker : life.sequencer.flusher.worker = .writing batch failures)
    (hwrite : Checkpoint.putBatch life.store life.partition batch.rows = (.error error, store)) :
    life.settling = [(batch, .abandoned)] := by
  simp only [settling, hworker, hwrite, hstopping, if_true]

omit [LawfulBackend β] in
theorem settling_of_retaining {store : Faulty β}
    (hwriting : ∀ batch failures, life.sequencer.flusher.worker = .writing batch failures →
      life.sequencer.isStopping = false ∧ ∃ error,
        Checkpoint.putBatch life.store life.partition batch.rows = (.error error, store)) :
    life.settling = [] := by
  unfold settling
  cases hworker : life.sequencer.flusher.worker with
  | writing batch failures =>
    obtain ⟨hgoing, error, hwrite⟩ := hwriting batch failures hworker
    simp only [hwrite, hgoing, Bool.false_eq_true, if_false]
  | _ => rfl

/-- The worker shows in the outline by what it is through with, by what is carried and by the flag. -/
theorem moves_of_delivery {after : Flusher} {store : Faulty β}
    (hpending : after.pending = life.sequencer.flusher.pending)
    (hdelivery : life.sequencer.flusher.Delivery life.partition life.sequencer.isStopping life.store
      after store) :
    Move life.partition life.outline (outline { life with
      sequencer := { life.sequencer with flusher := after }
      store
      settled := life.settled ++ life.settling }) := by
  cases hdelivery with
  | land batch failures hworker hwrite hbefore hafter hactive =>
    have hland : Move life.partition life.outline _ := .land batch hbefore
    rw [settling_of_landing hworker hwrite]
    simp only [outline, hpending, hafter, hactive, Checkpoint.rows_of_putBatch_ok hwrite] at hland ⊢
    exact hland
  | abandon batch failures error hstopping hworker hwrite hbefore hafter hactive =>
    have habandon : Move life.partition life.outline _ := .abandon batch hstopping hbefore
    rw [settling_of_abandoning hstopping hworker hwrite]
    simp only [outline, hpending, hafter, hactive, Checkpoint.rows_of_putBatch_error hwrite]
      at habandon ⊢
    exact habandon
  | retain hwriting hstore hcarried hactive =>
    have hrows : store.rows = life.store.rows := by
      rcases hstore with rfl | ⟨rows, error, hwrite⟩
      · rfl
      · exact Checkpoint.rows_of_putBatch_error hwrite
    rw [settling_of_retaining hwriting, List.append_nil]
    rcases hactive with hactive | ⟨hactive, hnone⟩
    · have hstay : Move life.partition life.outline life.outline := .stay
      simp only [outline, hpending, hcarried, hactive, hrows] at hstay ⊢
      exact hstay
    · have hlower : Move life.partition life.outline _ := .lower hnone
      simp only [outline, hpending, hcarried, hactive, hrows] at hlower ⊢
      exact hlower

theorem Sound.work (h : life.Sound) : Follows life life.work := by
  rw [Life.work, Sequencer.workerStep?]
  have hheld : (life.sequencer.isReleased && !false) = false := by
    rw [Sequencer.isReleased, h.held]
    rfl
  rw [hheld]
  cases hstep : life.sequencer.flusher.workerStep? life.sequencer.config life.sequencer.partition
    ⟨life.clock, life.sequencer.isStopping, false⟩ life.store with
  | none => exact h.stay
  | some result =>
    obtain ⟨after, store⟩ := result
    have hmove := Flusher.workerMove_of_step hstep rfl
    obtain ⟨hpending, hopen⟩ := hmove.keeps
    have hsound : Sound { life with
        sequencer := { life.sequencer with flusher := after }
        store
        settled := life.settled ++ life.settling } :=
      ⟨hmove.sound h.flusher, h.held, h.serving_iff, fun hstage ↦ hopen.trans (h.isOpen hstage)⟩
    exact ⟨rfl, hsound, moves_of_delivery hpending (hmove.delivery h.flusher)⟩

/-! ### All actions -/

theorem Sound.whileServing (h : life.Sound) (action : Life β → Life β)
    (haction : life.stage = .serving → Follows life (action life)) :
    Follows life (life.whileServing action) := by
  unfold Life.whileServing
  split_ifs with hserving
  · exact haction hserving
  · exact h.stay

/-- What an orderly action can do. -/
theorem Sound.act_moves (h : life.Sound) {action : Action} (horderly : action.IsOrderly) :
    Follows life (life.act action) := by
  cases action with
  | recover => exact h.whileServing _ fun _ ↦ h.recover
  | call call preference =>
    exact h.whileServing (Life.call · preference call) fun hserving ↦
      h.call hserving preference call
  | takeId sequence => exact h.whileServing (Life.takeId · sequence) fun _ ↦ h.takeId sequence
  | commit event => exact h.whileServing (Life.commit · event) fun _ ↦ h.commit event
  | finish => exact h.whileServing _ h.finish
  | cancel isCommitted =>
    cases isCommitted with
    | false => exact h.whileServing (Life.cancel · false) fun _ ↦ h.cancel
    | true => exact horderly.elim
  | shutdown => exact h.shutdown
  | recovery preference => exact h.recovery preference
  | work => exact h.work
  | wait milliseconds => exact ⟨rfl, ⟨h.flusher, h.held, h.serving_iff, h.isOpen⟩, .stay⟩
  | disturb reads writes logReads =>
    exact ⟨rfl, ⟨h.flusher, h.held, h.serving_iff, h.isOpen⟩, .stay⟩
  | crash config => exact horderly.elim

omit [Backend β] [LawfulBackend β] in
theorem sound_start (store : Faulty β) (log : MemoryLog) (partition : PartitionId)
    (config : Config) : (start store log partition config).Sound where
  flusher := Flusher.sound_start
  held := rfl
  serving_iff := iff_of_true rfl rfl
  isOpen _ := rfl

omit [Backend β] [LawfulBackend β] in
theorem sound_crash (life : Life β) (config : Config) : (life.crash config).Sound := by
  obtain ⟨hflusher, hheld, hiff, hopen⟩ := sound_start life.store life.log life.partition config
  exact ⟨hflusher, hheld, hiff, hopen⟩

/-- What an action can do that is not orderly. -/
theorem Sound.act_lapses (h : life.Sound) {action : Action} (hlapse : ¬ action.IsOrderly) :
    Follows life (life.act action) ∨
      (life.act action).partition = life.partition ∧ (life.act action).Sound ∧
        Lapse life.outline (life.act action).outline := by
  cases action with
  | crash config => exact Or.inr ⟨rfl, sound_crash life config, .crash⟩
  | cancel isCommitted =>
    cases isCommitted with
    | false => exact absurd trivial hlapse
    | true =>
      rw [act, Life.whileServing]
      split_ifs
      · unfold Life.cancel
        split
        case h_1 draft hdraft =>
          obtain ⟨usage, isCommitted⟩ := draft
          split_ifs with hcommitted
          · obtain rfl : isCommitted = true := hcommitted
            rw [Sequencer.cancelEvent, Sequencer.guarded]
            split_ifs
            · exact Or.inr ⟨rfl, ⟨h.flusher, h.held, h.serving_iff, h.isOpen⟩,
                .cancelCommitted usage hdraft⟩
            · exact Or.inl h.stay
          · exact Or.inl h.stay
        case h_2 => exact Or.inl h.stay
      · exact Or.inl h.stay
  | _ => exact absurd trivial hlapse

omit [LawfulBackend β] in
theorem run_append (life : Life β) (first second : List Action) :
    life.run (first ++ second) = (life.run first).run second := List.foldl_append

/-- What every move keeps, and every lapse where there are any, holds throughout a run. -/
theorem Sound.run (h : life.Sound) {P : Outline → Prop} (hP : P life.outline)
    (actions : List Action)
    (hmove : ∀ {o after}, P o → Move life.partition o after → P after)
    (hlapse : (∃ action ∈ actions, ¬ action.IsOrderly) →
      ∀ {o after}, P o → Lapse o after → P after) :
    (life.run actions).partition = life.partition ∧ (life.run actions).Sound ∧
      P (life.run actions).outline := by
  induction actions generalizing life with
  | nil => exact ⟨rfl, h, hP⟩
  | cons action actions ih =>
    have hstep : (life.act action).partition = life.partition ∧ (life.act action).Sound ∧
        P (life.act action).outline := by
      by_cases horderly : action.IsOrderly
      · obtain ⟨hpartition, hsound, hmoves⟩ := h.act_moves horderly
        exact ⟨hpartition, hsound, hmove hP hmoves⟩
      · rcases h.act_lapses horderly with
          ⟨hpartition, hsound, hmoves⟩ | ⟨hpartition, hsound, hlapses⟩
        · exact ⟨hpartition, hsound, hmove hP hmoves⟩
        · exact ⟨hpartition, hsound, hlapse ⟨action, List.mem_cons_self, horderly⟩ hP hlapses⟩
    obtain ⟨hpartition, hsound, hnext⟩ := hstep
    obtain ⟨hpartitionRun, hrun⟩ := ih hsound hnext (hpartition ▸ hmove)
      fun ⟨other, hother, hdisorderly⟩ ↦
        hlapse ⟨other, List.mem_cons_of_mem action hother, hdisorderly⟩
    exact ⟨hpartitionRun.trans hpartition, hrun⟩

end Life

end LogSequencing
