import LogSequencing.Proofs.Checkpoint.Replay
import LogSequencing.Proofs.Storage.Malformed

/-!
# Which errors of stored data count as transient

Where the store answers every request and the log can be read, all that can go wrong with a read of
a checkpoint or of a recovery point lies in the rows, which it leaves as they are. So it goes wrong
again until they are repaired (`TransientWhen.again`). A key that cannot be read counts as corrupted
and not as transient. A value that cannot be read counts as a failure of the store, and so as
transient (`reads_transientWhen`).
-/

set_option autoImplicit false
set_option relaxedAutoImplicit false

namespace LogSequencing

/-- Every error of a chain of steps is the error of a step. -/
theorem of_foldlM_eq_error {α γ ε : Type} {step : γ → α → Except ε γ} {P : ε → Prop}
    (hstep : ∀ state item error, step state item = .error error → P error) {items : List α}
    {state : γ} {error : ε} (h : items.foldlM step state = .error error) : P error := by
  induction items generalizing state with
  | nil => cases h
  | cons item items ih =>
    rw [List.foldlM_cons] at h
    cases hitem : step state item with
    | error other =>
      obtain rfl : other = error := Except.error.inj (hitem ▸ h)
      exact hstep state item other hitem
    | ok next => exact ih (hitem ▸ h)

/-! ### Keys -/

theorem Checkpoint.isTransient_of_readKey {key : Octets} {error : EngineError}
    (h : readKey key = .error error) : error.isTransient = false := by
  unfold readKey at h
  dsimp only at h
  split at h
  · exact Except.error.inj h ▸ rfl
  · split at h
    · exact Except.error.inj h ▸ rfl
    · cases h

theorem Checkpoint.isTransient_of_readRow {counters : Counters} {row : Octets × StoredLast}
    {error : EngineError} (h : readRow counters row = .error error) : error.isTransient = false := by
  cases hkey : readKey row.1 with
  | error other =>
    rw [readRow, hkey] at h
    exact isTransient_of_readKey (hkey.trans (congrArg _ (Except.error.inj h)))
  | ok read => cases (readRow_of_readKey hkey counters).symm.trans h

theorem RecoveryPoint.isTransient_of_readRow {point : RecoveryPoint} {row : Octets × WorkspacePoint}
    {error : EngineError} (h : readRow point row = .error error) : error.isTransient = false := by
  unfold readRow at h
  split at h
  · exact Except.error.inj h ▸ rfl
  · split_ifs at h

/-! ### Reads of rows -/

variable {β : Type} [Backend β] [LawfulBackend β]

/-- A read of a lawful store that depends on the rows alone and leaves them as they are, and whose
error counts as transient exactly when something is wrong with them. -/
structure TransientWhen {α : Type} (read : β → Except EngineError α × β) (IsWrong : Rows → Prop) :
    Prop where
  kept : ∀ store, LawfulBackend.rows (read store).2 = LawfulBackend.rows store
  same : ∀ store other : β, LawfulBackend.rows other = LawfulBackend.rows store →
    (read other).1 = (read store).1
  isTransient_iff : ∀ store, (∃ error, (read store).1 = .error error ∧ error.isTransient = true) ↔
    IsWrong (LawfulBackend.rows store)

/-- The same call fails again. -/
theorem TransientWhen.again {α : Type} {read : β → Except EngineError α × β} {IsWrong : Rows → Prop}
    (h : TransientWhen read IsWrong) (store : β) : (read (read store).2).1 = (read store).1 :=
  h.same store _ (h.kept store)

/-- A scan whose values are put together in a way that fails only for good. -/
theorem transientWhen_scan {α γ : Type} [Json.Stored α] (ns : Namespace) (start : Octets)
    {gather : List (Octets × α) → Except EngineError γ}
    (hgather : ∀ items error, gather items = .error error → error.isTransient = false) :
    TransientWhen (fun store : β ↦
        let (result, store) := ns.scan store start
        ((result.mapError EngineError.storage).bind gather, store))
      (ns.HasMalformed α start) where
  kept store := by
    obtain ⟨after, hscan, hrows⟩ := ns.scan_eq_rows (α := α) store start
    simpa only [hscan] using hrows
  same store other hrows := by
    obtain ⟨after, hscan, -⟩ := ns.scan_eq_rows (α := α) store start
    obtain ⟨otherAfter, hother, -⟩ := ns.scan_eq_rows (α := α) other start
    simp only [hscan, hother, hrows]
  isTransient_iff store := by
    dsimp only
    rcases ns.scan_cases (α := α) store start with ⟨items, hitems, hgood⟩ | ⟨key, herror, hbad⟩
    · refine iff_of_false ?_ hgood
      rintro ⟨error, hread, htransient⟩
      rw [hitems] at hread
      exact absurd htransient (hgather items error hread ▸ Bool.false_ne_true)
    · exact iff_of_true ⟨.storage (.malformedValue key), by rw [herror]; rfl, rfl⟩ hbad

theorem transientWhen_readPartition (partition : PartitionId) :
    TransientWhen (fun store : β ↦ Checkpoint.readPartition store partition)
      (Checkpoint.sequences.HasMalformed StoredLast (Key.partitionStart partition)) :=
  transientWhen_scan Checkpoint.sequences (Key.partitionStart partition) fun _ _ herror ↦
    of_foldlM_eq_error (fun _ _ _ ↦ Checkpoint.isTransient_of_readRow) herror

theorem transientWhen_load (partition : PartitionId) :
    TransientWhen (fun store : β ↦ RecoveryPoint.load store partition)
      (RecoveryPoint.points.HasMalformed WorkspacePoint (Key.partitionStart partition)) :=
  transientWhen_scan RecoveryPoint.points (Key.partitionStart partition) fun _ _ herror ↦
    of_foldlM_eq_error (fun _ _ _ ↦ RecoveryPoint.isTransient_of_readRow) herror

variable {σ : Type} [LogSource σ]

theorem transientWhen_replay {log : σ} {partition : PartitionId}
    (hreadable : ∀ start, (LogSource.readFrom log partition start).1.failure? = none) :
    TransientWhen (fun store : β ↦
        let (result, store, _) := Checkpoint.replay store log partition
        (result, store))
      (Checkpoint.sequences.HasMalformed StoredLast (Key.partitionStart partition)) := by
  have hread := transientWhen_readPartition (β := β) partition
  refine ⟨fun store ↦ ?_, fun store other hrows ↦ ?_, fun store ↦ ?_⟩
  · refine Eq.trans (congrArg LawfulBackend.rows ?_) (hread.kept store)
    dsimp only
    rw [Checkpoint.replay]
    rcases Checkpoint.readPartition store partition with ⟨_ | _, _⟩ <;> rfl
  · dsimp only
    rw [Checkpoint.replay_fst, Checkpoint.replay_fst, hread.same store other hrows]
  · refine Iff.trans (exists_congr fun error ↦ and_congr_left' ?_) (hread.isTransient_iff store)
    dsimp only
    rw [Checkpoint.replay_fst]
    cases (Checkpoint.readPartition store partition).1 with
    | error _ => rfl
    | ok counters =>
      simp [Except.bind, Checkpoint.observeReading, hreadable counters.offset]

/-- On a store that answers every request and with a log that can be read, the error of a read counts
as transient exactly if a value is malformed, though the same call on the same rows fails again. -/
theorem reads_transientWhen (log : σ) (partition : PartitionId)
    (hreadable : ∀ start, (LogSource.readFrom log partition start).1.failure? = none) :
    TransientWhen (fun store : β ↦ Checkpoint.readPartition store partition)
        (Checkpoint.sequences.HasMalformed StoredLast (Key.partitionStart partition)) ∧
      TransientWhen (fun store : β ↦ RecoveryPoint.load store partition)
        (RecoveryPoint.points.HasMalformed WorkspacePoint (Key.partitionStart partition)) ∧
      TransientWhen (fun store : β ↦
          let (result, store, _) := Checkpoint.replay store log partition
          (result, store))
        (Checkpoint.sequences.HasMalformed StoredLast (Key.partitionStart partition)) :=
  ⟨transientWhen_readPartition partition, transientWhen_load partition,
    transientWhen_replay hreadable⟩

/-- The rows of the first partition with a letter where a number is expected, for a sequence and for
a recovery point. -/
def scribbledRows : Rows := (∅ : Rows).insertAll [
  (Checkpoint.sequences.storedKey (Checkpoint.sequenceKey ⟨1⟩ ⟨10⟩ (.id .ordinary)),
    Octets.ofText "x"),
  (RecoveryPoint.points.storedKey (RecoveryPoint.rowKey ⟨1⟩ ⟨10⟩), Octets.ofText "x")]

theorem scribbledRows_transient :
    (∃ error, (Checkpoint.readPartition scribbledRows ⟨1⟩).1 = .error error ∧
        error.isTransient = true ∧
        (Checkpoint.replay scribbledRows MemoryLog.empty ⟨1⟩).1 = .error error ∧
        (Checkpoint.readPartition (Checkpoint.readPartition scribbledRows ⟨1⟩).2 ⟨1⟩).1 =
          .error error) ∧
      ∃ error, (RecoveryPoint.load scribbledRows ⟨1⟩).1 = .error error ∧
        error.isTransient = true ∧
        (RecoveryPoint.load (RecoveryPoint.load scribbledRows ⟨1⟩).2 ⟨1⟩).1 = .error error := by
  have hreadable (start : Offset) :
      (LogSource.readFrom MemoryLog.empty (⟨1⟩ : PartitionId) start).1.failure? = none := by
    rw [MemoryLog.readsAs rfl ⟨1⟩]
  obtain ⟨hcheckpoint, hpoint, -⟩ :=
    reads_transientWhen (β := Rows) MemoryLog.empty ⟨1⟩ hreadable
  have hsequence : Checkpoint.sequences.HasMalformed StoredLast (Key.partitionStart ⟨1⟩)
      scribbledRows :=
    ⟨_, Octets.ofText "x", by decide +kernel,
      Checkpoint.partitionStart_isPrefix ⟨1⟩ ⟨10⟩ (.id .ordinary), by decide +kernel⟩
  have hrow : RecoveryPoint.points.HasMalformed WorkspacePoint (Key.partitionStart ⟨1⟩)
      scribbledRows :=
    ⟨RecoveryPoint.points.storedKey (RecoveryPoint.rowKey ⟨1⟩ ⟨10⟩), Octets.ofText "x",
      by decide +kernel, (List.prefix_append_right_inj _).mpr (List.prefix_append _ _),
      by decide +kernel⟩
  obtain ⟨error, hread, htransient⟩ := (hcheckpoint.isTransient_iff scribbledRows).mpr hsequence
  obtain ⟨other, hload, hother⟩ := (hpoint.isTransient_iff scribbledRows).mpr hrow
  refine ⟨⟨error, hread, htransient, ?_, (hcheckpoint.again scribbledRows).trans hread⟩,
    other, hload, hother, (hpoint.again scribbledRows).trans hload⟩
  rw [Checkpoint.replay_fst, hread]
  rfl

end LogSequencing
