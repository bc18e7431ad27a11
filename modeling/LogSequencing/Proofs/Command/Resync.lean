import LogSequencing.Command.Run
import LogSequencing.Proofs.Log.Onward
import LogSequencing.Proofs.Log.Resumption
import LogSequencing.Proofs.RecoveryPoint.Sync

/-!
# Syncing again

A sync that succeeds has stored the point that it reports, whatever was stored before and whatever the
log holds (`RecoveryPoint.exists_of_sync`). A second sync finds nothing that follows this point: it
loads it, writes nothing and reports it once more. But the offset to go on from is worked out before it
is known whether any event follows, and the last offset has none after it. A point that has come so far
can be shown, and it can never be synced again (`Command.resync_eq`).
-/

set_option autoImplicit false
set_option relaxedAutoImplicit false

namespace LogSequencing

namespace RecoveryPoint

variable {partition : PartitionId} {content : WorkspaceId → Option WorkspacePoint}
  {point : RecoveryPoint}

/-- The offset of a point is that of the last event it has taken in. -/
theorem offset_foldl_incorporate (point : RecoveryPoint) (events : List Event) :
    (events.foldl incorporate point).offset =
      (events.getLast?.map Event.offset).getD point.offset := by
  induction events using List.reverseRecOn with
  | nil => rfl
  | append_singleton events event ih =>
    rw [List.foldl_append, List.getLast?_concat]
    exact offset_update ..

section Sync

variable {β σ : Type} [Backend β] [LawfulBackend β] [LogSource σ] {store after : β} {log unread : σ}

/-- A sync that succeeds begins behind the stored point, and stores the point that it reports. -/
theorem exists_of_sync (hkeeps : (range partition).Keeps (LawfulBackend.rows store) content)
    (h : sync store log partition = (.ok point, after, unread)) :
    ∃ (stored : RecoveryPoint) (start : Offset) (visited : List Event),
      stored.Tells partition content ∧ stored.offset.next? = some start ∧
      LogSource.readFrom log partition start = (⟨visited, none⟩, unread) ∧
      point.offset = (visited.getLast?.map Event.offset).getD stored.offset ∧
      (load (LawfulBackend.rows after) partition).1 = .ok point := by
  obtain ⟨stored, hload, htells⟩ := load_of_keeps hkeeps
  obtain ⟨loaded, hloaded, hrows⟩ := load_eq_rows store partition
  unfold sync at h
  simp only [hloaded, hload] at h
  cases hnext : stored.offset.next? with
  | none => simp [hnext] at h
  | some start =>
    rcases hread : LogSource.readFrom log partition start with ⟨⟨visited, failure?⟩, later⟩
    cases failure? with
    | some error => simp [hnext, hread] at h
    | none =>
      simp only [hnext, hread, storeWith] at h
      cases visited with
      | nil =>
        obtain ⟨rfl, rfl, rfl⟩ : stored = point ∧ loaded = after ∧ later = unread := by simpa using h
        exact ⟨stored, start, [], htells, hnext, hread, rfl, by rw [hrows, hload]⟩
      | cons event rest =>
        obtain ⟨saved, hsave, hsaved⟩ :=
          save_eq_rows loaded ((event :: rest).foldl incorporate stored)
        rw [List.isEmpty_cons, if_neg Bool.false_ne_true, hsave] at h
        obtain ⟨rfl, rfl, rfl⟩ : _ = point ∧ saved = after ∧ later = unread := by simpa using h
        refine ⟨stored, start, event :: rest, htells, hnext, hread,
          offset_foldl_incorporate stored (event :: rest), ?_⟩
        rw [hsaved, hrows]
        exact (htells.overlays.foldl_incorporate (event :: rest)).load_save hkeeps

omit [LawfulBackend β] in
/-- Where nothing follows the stored point, a sync does no more than load it, and fails if its offset
is the last one. -/
theorem sync_of_nothing {loaded : β} (hload : load store partition = (.ok point, loaded))
    (hread : ∀ next, point.offset.next? = some next →
      LogSource.readFrom log partition next = (⟨[], none⟩, log)) :
    sync store log partition =
      (if point.offset = .last then .error (.violation .offsetsExhausted) else .ok point,
        loaded, log) := by
  unfold sync
  simp only [hload]
  by_cases hlast : point.offset = .last
  · have hnext : point.offset.next? = none := if_pos hlast
    simp only [hnext, if_pos hlast]
  · obtain ⟨next, hnext⟩ := Serial.exists_next? (Serial.lt_of_ne_last hlast)
    simp only [hnext, hread next hnext, if_neg hlast]
    rfl

end Sync

variable {β : Type} [Backend β] [LawfulBackend β] {store after reopened : β} {log unread : FileLog}

/-- A second sync finds nothing that follows the point of the first. -/
theorem readFrom_after_sync (hkeeps : (range partition).Keeps (LawfulBackend.rows store) content)
    (h : sync store log partition = (.ok point, after, unread)) (later : Instant) {next : Offset}
    (hnext : point.offset.next? = some next) :
    LogSource.readFrom { log with now := later } partition next =
      (⟨[], none⟩, { log with now := later }) := by
  obtain ⟨stored, start, visited, -, hstart, hread, hoffset, -⟩ := exists_of_sync hkeeps h
  obtain ⟨hsorted, hwanted⟩ := FileLog.visited_sound hread
  rcases List.eq_nil_or_concat visited with rfl | ⟨front, last, rfl⟩
  · obtain rfl : start = next := by
      rw [hoffset] at hnext
      exact Option.some.inj (hstart.symm.trans hnext)
    exact FileLog.readFrom_onward hread (Std.le_refl _)
      (fun _ hnone ↦ absurd hnone List.not_mem_nil) later
  rw [List.concat_eq_append] at hread hoffset hsorted hwanted
  have hlast : point.offset = last.offset := by
    rw [hoffset, List.getLast?_concat]
    rfl
  have hlt : last.offset < next := hlast ▸ Serial.lt_next hnext
  have hle : start ≤ next :=
    Std.le_trans (hwanted last (List.mem_append_right _ List.mem_cons_self)) (Std.le_of_lt hlt)
  refine FileLog.readFrom_onward hread hle (fun event hevent ↦ ?_) later
  rcases List.mem_append.mp hevent with hfront | hsame
  · have hbefore := (List.pairwise_append.mp hsorted).2.2 event hfront last List.mem_cons_self
    exact Std.lt_of_le_of_lt hbefore hlt
  · rwa [List.mem_singleton.mp hsame]

/-- A sync after a sync loads the point that the first one reported, and leaves it at that. -/
theorem sync_after_sync (hkeeps : (range partition).Keeps (LawfulBackend.rows store) content)
    (h : sync store log partition = (.ok point, after, unread))
    (hreopened : LawfulBackend.rows reopened = LawfulBackend.rows after) (later : Instant) :
    ∃ loaded, load reopened partition = (.ok point, loaded) ∧
      LawfulBackend.rows loaded = LawfulBackend.rows reopened ∧
      sync reopened { log with now := later } partition =
        (if point.offset = .last then .error (.violation .offsetsExhausted) else .ok point,
          loaded, { log with now := later }) := by
  obtain ⟨-, -, -, -, -, -, -, hstored⟩ := exists_of_sync hkeeps h
  obtain ⟨loaded, hload, hrows⟩ := load_eq_rows reopened partition
  rw [hreopened, hstored] at hload
  exact ⟨loaded, hload, hrows, sync_of_nothing hload fun next hnext ↦
    readFrom_after_sync hkeeps h later hnext⟩

omit [LawfulBackend β] in
/-- Loading a point costs one scan. -/
theorem statistics_load (store : Metered β) (partition : PartitionId) :
    (load store partition).2.statistics =
      { store.statistics with scans := store.statistics.scans + 1 } := rfl

end RecoveryPoint

namespace Command

variable {β : Type} [Backend β] [LawfulBackend β] {partition : PartitionId}
  {content : WorkspaceId → Option WorkspacePoint} {store after reopened : Metered β}
  {log unread : FileLog} {settings : Settings} {report : Json.Value}

/-- **Syncing again changes nothing.** Any point may be stored, and the log may hold anything. If a sync
succeeds, the log is as before and the point that was reported is stored. Another sync on the same rows,
at any time, scans them once and does not write. It reports that point again, unless the point has come
to the last offset: then it is a violation, though there is nothing to take in. -/
theorem resync_eq (hkeeps : (RecoveryPoint.range partition).Keeps (LawfulBackend.rows store) content)
    (hrun : run settings store log (.syncPoint partition) = (.ok report, after, unread))
    (hreopened : LawfulBackend.rows reopened = LawfulBackend.rows after) (others : Settings)
    (later : Instant) :
    unread = log ∧ ∃ point again,
      (loadPoint reopened partition).1 = .ok point ∧ point.report = report ∧
      run others reopened { log with now := later } (.syncPoint partition) =
        (if point.offset = .last then .error (.violation .offsetsExhausted) else .ok report,
          again, { log with now := later }) ∧
      LawfulBackend.rows again = LawfulBackend.rows reopened ∧
      again.statistics = { reopened.statistics with scans := reopened.statistics.scans + 1 } := by
  rcases hsync : RecoveryPoint.sync store log partition with ⟨_ | point, synced, read⟩
  · simp [run, hsync, Except.map] at hrun
  obtain ⟨rfl, rfl, rfl⟩ : point.report = report ∧ synced = after ∧ read = unread := by
    simpa [run, hsync, Except.map] using hrun
  obtain ⟨_, _, _, -, -, hread, -⟩ := RecoveryPoint.exists_of_sync hkeeps hsync
  obtain ⟨again, hload, hrows, hagain⟩ :=
    RecoveryPoint.sync_after_sync hkeeps hsync hreopened later
  refine ⟨(FileLog.exists_of_readFrom hread).1, point, again, ?_, rfl, ?_, hrows, ?_⟩
  · simp only [loadPoint, hload]
    rfl
  · simp only [run, hagain]
    split <;> rfl
  · rw [← RecoveryPoint.statistics_load, hload]

/-- The last offset has been given to an event. -/
def fullLog : FileLog :=
  (FileLog.empty "logs" default).setDirectory ⟨1⟩
    (directoryOf [⟨.first, Entry.encoded (.blank 0xffffffffffffffff)⟩])

/-- A sync of the partition in that log. -/
def syncFull (store : Metered Rows) : Except Breakdown Json.Value × Metered Rows × FileLog :=
  run ⟨.default, 30⟩ store fullLog (.syncPoint ⟨1⟩)

-- Scanning the log takes a checksum.
set_option maxRecDepth 20000 in
theorem syncFull_stores_last :
    let first := syncFull (.ofBackend .empty)
    first.1.isOk = true ∧
      (loadPoint first.2.1 ⟨1⟩).1.toOption.map RecoveryPoint.offset = some .last := by
  decide +kernel

/-- The first sync succeeds. The second one has nothing to do, writes nothing, and fails. -/
theorem syncFull_twice :
    let first := syncFull (.ofBackend .empty)
    let second := syncFull first.2.1
    (∃ report, first.1 = .ok report) ∧ second.1 = .error (.violation .offsetsExhausted) ∧
      second.2.1.statistics =
        { first.2.1.statistics with scans := first.2.1.statistics.scans + 1 } := by
  obtain ⟨hok, hoffset⟩ := syncFull_stores_last
  rcases hfirst : syncFull (.ofBackend .empty) with ⟨error | report, after, unread⟩
  · rw [hfirst] at hok
    exact absurd hok Bool.false_ne_true
  rw [hfirst] at hoffset
  have hkeeps : (RecoveryPoint.range ⟨1⟩).Keeps
      (LawfulBackend.rows (Metered.ofBackend Rows.empty)) fun _ ↦ (none : Option WorkspacePoint) :=
    KeyRange.keeps_nothing (RecoveryPoint.rows_empty_free _)
  obtain ⟨-, point, again, hload, -, hsecond, -, hstatistics⟩ :=
    resync_eq hkeeps hfirst rfl ⟨.default, 30⟩ fullLog.now
  have hlast : point.offset = .last := by
    rw [hload] at hoffset
    exact Option.some.inj hoffset
  have hagain : syncFull after = (.error (.violation .offsetsExhausted), again, fullLog) := by
    rw [if_pos hlast] at hsecond
    exact hsecond
  intro first second
  refine ⟨⟨report, rfl⟩, congrArg Prod.fst hagain, ?_⟩
  exact (congrArg (·.2.1.statistics) hagain).trans hstatistics

end Command

end LogSequencing
