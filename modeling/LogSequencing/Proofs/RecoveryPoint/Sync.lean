import LogSequencing.Command.Sync
import LogSequencing.Proofs.Log.Memory
import LogSequencing.Proofs.Log.Session
import LogSequencing.Proofs.RecoveryPoint.Upkeep

/-!
# Bringing a recovery point up to date

A sync takes into the stored point what follows it in the log. `Summarizes` says what a point tells of
events: the offset of the last one, and of each workspace the last event and the highest record numbers.
Taking in one more event keeps a point that does so true (`Summarizes.incorporate`), and a sync begins
right behind the events that the stored point summarizes. So the stored point summarizes the log after
every sync (`Covers.sync`), and syncs at any times lead to the point of a single one
(`syncEach_eq_sync`).
-/

set_option autoImplicit false
set_option relaxedAutoImplicit false

namespace LogSequencing

/-- The numbers of a sequence among those used. -/
def idsOf (sequence : IdSequence) (used : List (IdSequence × RecordId)) : List RecordId :=
  (used.filter (·.1 = sequence)).map Prod.snd

namespace WorkspacePoint

/-- The base number of a sequence. -/
def base (point : WorkspacePoint) : IdSequence → RecordId
  | .ordinary => point.baseId
  | .compacting => point.compactingBaseId

theorem ext_base {point other : WorkspacePoint} (hoffset : point.offset = other.offset)
    (hbase : ∀ sequence, point.base sequence = other.base sequence) : point = other := by
  obtain ⟨offset, baseId, compactingBaseId⟩ := point
  obtain rfl : offset = other.offset := hoffset
  obtain rfl : baseId = other.baseId := hbase .ordinary
  obtain rfl : compactingBaseId = other.compactingBaseId := hbase .compacting
  rfl

theorem base_cover (point : WorkspacePoint) (used : IdSequence × RecordId)
    (sequence : IdSequence) :
    (point.cover used).base sequence =
      if used.1 = sequence then max (point.base sequence) used.2 else point.base sequence := by
  obtain ⟨kind, id⟩ := used
  cases kind <;> cases sequence <;> rfl

/-- The base number of a sequence rises to the highest of its numbers. -/
theorem base_foldl_cover (point : WorkspacePoint) (used : List (IdSequence × RecordId))
    (sequence : IdSequence) :
    (used.foldl cover point).base sequence =
      (idsOf sequence used).foldl max (point.base sequence) := by
  induction used generalizing point with
  | nil => rfl
  | cons first used ih =>
    rw [List.foldl_cons, ih, base_cover, idsOf, idsOf, List.filter_cons]
    by_cases hsame : first.1 = sequence
    · rw [if_pos hsame, if_pos (decide_eq_true hsame), List.map_cons, List.foldl_cons]
    · rw [if_neg hsame, if_neg (by simpa using hsame)]

theorem base_follow (point : WorkspacePoint) (event : Event) (sequence : IdSequence) :
    (point.follow event).base sequence =
      (idsOf sequence event.usedIds).foldl max (point.base sequence) := by
  rw [← base_foldl_cover]
  cases sequence <;> rfl

end WorkspacePoint

/-! ### What a point tells of events -/

/-- The highest number that events used of a sequence, null if they used none. -/
def highestId (sequence : IdSequence) (events : List Event) : RecordId :=
  (idsOf sequence (events.flatMap Event.usedIds)).max?.getD .null

theorem Serial.null_max {space : Space} (n : Serial space) : max .null n = n := by
  refine eq_of_toNat_eq ?_
  rw [toNat_max]
  exact Nat.max_eq_right (Nat.zero_le _)

theorem getD_max?_eq_foldl {space : Space} (numbers : List (Serial space)) :
    numbers.max?.getD .null = numbers.foldl max .null := by
  cases numbers with
  | nil => rfl
  | cons n numbers => rw [List.max?_cons', Option.getD_some, List.foldl_cons, Serial.null_max]

theorem highestId_append_singleton (sequence : IdSequence) (events : List Event) (event : Event) :
    highestId sequence (events ++ [event]) =
      (idsOf sequence event.usedIds).foldl max (highestId sequence events) := by
  unfold highestId
  rw [getD_max?_eq_foldl, getD_max?_eq_foldl, List.flatMap_append, List.flatMap_singleton, idsOf,
    List.filter_append, List.map_append, List.foldl_append]
  rfl

/-- The events of a workspace. -/
def eventsIn (workspace : WorkspaceId) (events : List Event) : List Event :=
  events.filter (·.workspace = workspace)

namespace RecoveryPoint

/-- What is to be told of a workspace: the offset of its last event and its highest numbers. -/
def summary (events : List Event) (workspace : WorkspaceId) : Option WorkspacePoint :=
  if workspace = .null then none
  else (eventsIn workspace events).getLast?.map fun last ↦
    { offset := last.workspaceOffset
      baseId := highestId .ordinary (eventsIn workspace events)
      compactingBaseId := highestId .compacting (eventsIn workspace events) }

/-- A point tells the last offset of some events and what is to be told of each workspace. -/
structure Summarizes (point : RecoveryPoint) (events : List Event) : Prop where
  offset : point.offset = (events.getLast?.map Event.offset).getD .null
  workspaces : ∀ workspace, point.workspaces[workspace]? = summary events workspace

variable {point : RecoveryPoint} {events : List Event}

theorem base_of_summary (sequence : IdSequence) {workspace : WorkspaceId}
    (hnull : workspace ≠ .null) :
    ((summary events workspace).getD .empty).base sequence =
      highestId sequence (eventsIn workspace events) := by
  rw [summary, if_neg hnull]
  cases hlast : (eventsIn workspace events).getLast? with
  | none =>
    rw [List.getLast?_eq_none_iff.mp hlast]
    cases sequence <;> rfl
  | some last => cases sequence <;> rfl

theorem summary_append_singleton (events : List Event) (event : Event) (workspace : WorkspaceId) :
    summary (events ++ [event]) workspace =
      if workspace = event.workspace ∧ workspace ≠ .null then
        some (((summary events workspace).getD .empty).follow event)
      else
        summary events workspace := by
  by_cases hnull : workspace = .null
  · rw [if_neg fun h ↦ h.2 hnull, summary, if_pos hnull, summary, if_pos hnull]
  by_cases hsame : workspace = event.workspace
  · have hevents : eventsIn workspace (events ++ [event]) = eventsIn workspace events ++ [event] := by
      simp [eventsIn, hsame]
    rw [if_pos ⟨hsame, hnull⟩, summary, if_neg hnull, hevents, List.getLast?_concat,
      Option.map_some]
    refine congrArg some (WorkspacePoint.ext_base rfl fun sequence ↦ ?_)
    rw [WorkspacePoint.base_follow, base_of_summary sequence hnull, ← highestId_append_singleton]
    cases sequence <;> rfl
  · have hevents : eventsIn workspace (events ++ [event]) = eventsIn workspace events := by
      simp [eventsIn, Ne.symm hsame]
    rw [if_neg fun h ↦ hsame h.1, summary, summary, hevents]

/-- Taking in one more event keeps what a point tells true. -/
theorem Summarizes.incorporate (h : point.Summarizes events) (event : Event) :
    (point.incorporate event).Summarizes (events ++ [event]) := by
  refine ⟨?_, fun workspace ↦ ?_⟩
  · rw [RecoveryPoint.incorporate, offset_update, List.getLast?_concat]
    rfl
  · rw [RecoveryPoint.incorporate, getElem?_update, summary_append_singleton, h.workspaces,
      h.workspaces]
    split
    · rename_i hsame
      rw [hsame.1]
    · rfl

theorem Summarizes.foldl_incorporate (h : point.Summarizes events) (fresh : List Event) :
    (fresh.foldl RecoveryPoint.incorporate point).Summarizes (events ++ fresh) := by
  induction fresh generalizing point events with
  | nil => rwa [List.append_nil]
  | cons event fresh ih =>
    have hrest := ih (h.incorporate event)
    rwa [List.append_assoc] at hrest

theorem summarizes_empty (partition : PartitionId) : (empty partition).Summarizes [] where
  offset := rfl
  workspaces workspace := by simp [empty, summary, eventsIn]

/-- What a log keeps of events is summarized like the events themselves. -/
theorem summary_map_kept (now : Instant) (events : List Event) (workspace : WorkspaceId) :
    summary (events.map (Event.kept now)) workspace = summary events workspace := by
  have hevents : eventsIn workspace (events.map (Event.kept now)) =
      (eventsIn workspace events).map (Event.kept now) := List.filter_map
  have hids (sequence : IdSequence) (events : List Event) :
      highestId sequence (events.map (Event.kept now)) = highestId sequence events := by
    rw [highestId, List.flatMap_map]
    rfl
  unfold summary
  rw [hevents, hids, hids, List.getLast?_map, Option.map_map]
  rfl

theorem summarizes_map_kept_iff (now : Instant) :
    point.Summarizes (events.map (Event.kept now)) ↔ point.Summarizes events := by
  have hlast : ((events.map (Event.kept now)).getLast?.map Event.offset).getD .null =
      (events.getLast?.map Event.offset).getD .null := by
    rw [List.getLast?_map, Option.map_map]
    rfl
  constructor
  · rintro ⟨hoffset, hworkspaces⟩
    exact ⟨hoffset.trans hlast,
      fun workspace ↦ (hworkspaces workspace).trans (summary_map_kept now events workspace)⟩
  · rintro ⟨hoffset, hworkspaces⟩
    exact ⟨hoffset.trans hlast.symm,
      fun workspace ↦ (hworkspaces workspace).trans (summary_map_kept now events workspace).symm⟩

/-- A point with nothing changed is settled by what it tells. -/
theorem Summarizes.eq {other : RecoveryPoint} (h : point.Summarizes events)
    (hother : other.Summarizes events) (hpartition : point.partition = other.partition)
    (hchanged : point.changed = other.changed) : point = other := by
  obtain ⟨partition, offset, workspaces, changed⟩ := point
  obtain ⟨partition', offset', workspaces', changed'⟩ := other
  obtain rfl : partition = partition' := hpartition
  obtain rfl : changed = changed' := hchanged
  obtain rfl : offset = offset' := h.offset.trans hother.offset.symm
  obtain rfl : workspaces = workspaces' :=
    Std.ExtTreeMap.ext_getElem? fun workspace ↦
      (h.workspaces workspace).trans (hother.workspaces workspace).symm
  rfl

/-! ### What the stored point tells of events -/

variable {partition : PartitionId} {rows : Rows}

/-- The rows of a partition hold a point that tells what is to be told of events. -/
def Covers (rows : Rows) (partition : PartitionId) (events : List Event) : Prop :=
  ∃ (content : WorkspaceId → Option WorkspacePoint) (point : RecoveryPoint),
    (range partition).Keeps rows content ∧ point.Tells partition content ∧ point.Summarizes events

theorem covers_nothing
    (hfree : ∀ key, (range partition).storedStart <+: key → rows[key]? = none) :
    Covers rows partition [] :=
  ⟨_, empty partition, KeyRange.keeps_nothing hfree, tells_empty partition,
    summarizes_empty partition⟩

theorem covers_map_kept_iff (now : Instant) :
    Covers rows partition (events.map (Event.kept now)) ↔ Covers rows partition events := by
  simp only [Covers, summarizes_map_kept_iff]

theorem Covers.load (h : Covers rows partition events) :
    ∃ point, load rows partition = (.ok point, rows) ∧ point.partition = partition ∧
      point.changed = ∅ ∧ point.Summarizes events := by
  obtain ⟨content, point, hkeeps, htells, hsummarizes⟩ := h
  obtain ⟨stored, hload, hstored⟩ := load_of_keeps hkeeps
  obtain rfl := hstored.eq htells
  exact ⟨stored, hload, htells.partition, htells.changed, hsummarizes⟩

theorem Overlays.foldl_incorporate {content : WorkspaceId → Option WorkspacePoint}
    (h : point.Overlays partition content) (fresh : List Event) :
    (fresh.foldl RecoveryPoint.incorporate point).Overlays partition content := by
  induction fresh generalizing point with
  | nil => exact h
  | cons event fresh ih => exact ih (h.update _ _ _)

/-- Events that follow are covered once they are taken into the point and it is saved. -/
theorem Covers.save (h : Covers rows partition events) {stored : RecoveryPoint}
    (hload : RecoveryPoint.load rows partition = (.ok stored, rows)) (fresh : List Event) :
    Covers (rows.insertAll ((fresh.foldl RecoveryPoint.incorporate stored).changedRows.map
      points.encodeRow)) partition (events ++ fresh) := by
  obtain ⟨content, point, hkeeps, htells, hsummarizes⟩ := h
  obtain ⟨loaded, hloaded, htells'⟩ := load_of_keeps hkeeps
  obtain rfl : stored = loaded :=
    Except.ok.inj (congrArg Prod.fst (hload.symm.trans hloaded))
  obtain rfl := htells'.eq htells
  have hoverlays := htells.overlays.foldl_incorporate fresh
  have hfresh := hsummarizes.foldl_incorporate fresh
  exact ⟨_, _, hoverlays.keeps_save hkeeps, hoverlays.tells_save, hfresh.offset, hfresh.workspaces⟩

/-! ### Syncs -/

variable {β σ : Type} [Backend β] [LawfulBackend β] [LogSource σ]

/-- A log is read as these events, from any offset on. -/
def ReadsAs (log : σ) (partition : PartitionId) (events : List Event) : Prop :=
  ∀ start, LogSource.readFrom log partition start =
    (⟨events.filter (start ≤ ·.offset), none⟩, log)

theorem load_eq_rows (store : β) (partition : PartitionId) :
    ∃ after, RecoveryPoint.load store partition =
        ((RecoveryPoint.load (LawfulBackend.rows store) partition).1, after) ∧
      LawfulBackend.rows after = LawfulBackend.rows store := by
  obtain ⟨after, hscan, hrows⟩ :=
    points.scan_eq_rows (α := WorkspacePoint) store (Key.partitionStart partition)
  refine ⟨after, ?_, hrows⟩
  simp only [RecoveryPoint.load, hscan]

theorem save_eq_rows (store : β) (point : RecoveryPoint) :
    ∃ after, RecoveryPoint.save store point = (.ok (), { point with changed := ∅ }, after) ∧
      LawfulBackend.rows after =
        (LawfulBackend.rows store).insertAll (point.changedRows.map points.encodeRow) := by
  obtain ⟨after, hbatch, hrows⟩ :=
    LawfulBackend.batch_eq store (point.changedRows.map points.encodeRow)
  refine ⟨after, ?_, hrows⟩
  simp only [RecoveryPoint.save, Namespace.putBatch, hbatch]

/-- A point has the greatest offset of the events that it summarizes. -/
theorem Summarizes.le_offset (h : point.Summarizes events) (hincreasing : IsIncreasing events) :
    ∀ event ∈ events, event.offset ≤ point.offset := by
  intro event hevent
  rcases List.eq_nil_or_concat events with rfl | ⟨front, last, rfl⟩
  · exact absurd hevent List.not_mem_nil
  rw [List.concat_eq_append] at h hincreasing hevent
  have hoffset : point.offset = last.offset := by
    rw [h.offset, List.getLast?_concat]
    rfl
  rw [hoffset]
  rcases List.mem_append.mp hevent with hfront | hsame
  · have hbefore := (List.pairwise_append.mp hincreasing.pairwise).2.2
    exact Std.le_of_lt (hbefore event hfront last List.mem_cons_self)
  · rw [List.mem_singleton.mp hsame]
    exact Std.le_refl _

theorem Summarizes.offset_lt (h : point.Summarizes events) {fresh : List Event}
    (hincreasing : IsIncreasing (events ++ fresh)) :
    ∀ event ∈ fresh, point.offset < event.offset := by
  intro event hevent
  rw [h.offset]
  cases hlast : events.getLast? with
  | none => exact hincreasing.null_lt event (List.mem_append_right _ hevent)
  | some last =>
    have hbefore := (List.pairwise_append.mp hincreasing.pairwise).2.2
    exact hbefore last (List.mem_of_getLast? hlast) event hevent

/-- From the offset after that of a point on, a log holds just the events that the point lacks. -/
theorem Summarizes.filter_next (h : point.Summarizes events) {fresh : List Event} {start : Offset}
    (hincreasing : IsIncreasing (events ++ fresh)) (hnext : point.offset.next? = some start) :
    (events ++ fresh).filter (start ≤ ·.offset) = fresh := by
  have hstart (offset : Offset) : start ≤ offset ↔ point.offset < offset := by
    have hval := Serial.toNat_of_next? hnext
    change start.val ≤ offset.val ↔ point.offset.val < offset.val
    rw [UInt64.le_iff_toNat_le, UInt64.lt_iff_toNat_lt, hval]
    exact Nat.succ_le_iff
  have hevents : IsIncreasing events :=
    ⟨fun event hevent ↦ hincreasing.null_lt event (List.mem_append_left _ hevent),
      (List.pairwise_append.mp hincreasing.pairwise).1⟩
  have hnone : events.filter (start ≤ ·.offset) = [] := by
    refine List.filter_eq_nil_iff.mpr fun event hevent hwanted ↦ ?_
    have hlt := (hstart event.offset).mp (of_decide_eq_true hwanted)
    exact Std.not_le.mpr hlt (h.le_offset hevents event hevent)
  have hall : fresh.filter (start ≤ ·.offset) = fresh := by
    refine List.filter_eq_self.mpr fun event hevent ↦ decide_eq_true ?_
    exact (hstart event.offset).mpr (h.offset_lt hincreasing event hevent)
  rw [List.filter_append, hnone, hall, List.nil_append]

/-- A sync takes in the events that follow, and covers the log. -/
theorem Covers.sync {store : β} (h : Covers (LawfulBackend.rows store) partition events)
    {fresh : List Event} {log : σ} (hlog : ReadsAs log partition (events ++ fresh))
    (hincreasing : IsIncreasing (events ++ fresh)) (hlast : ∀ event ∈ events, event.offset ≠ .last) :
    ∃ point after, RecoveryPoint.sync store log partition = (.ok point, after, log) ∧
      Covers (LawfulBackend.rows after) partition (events ++ fresh) := by
  obtain ⟨stored, hload, -, -, hsummarizes⟩ := h.load
  obtain ⟨loaded, hloaded, hrows⟩ := load_eq_rows store partition
  have hoffset : stored.offset ≠ .last := by
    rw [hsummarizes.offset]
    cases hevents : events.getLast? with
    | none => decide
    | some event => exact hlast event (List.mem_of_getLast? hevents)
  obtain ⟨start, hnext⟩ := Serial.exists_next? (Serial.lt_of_ne_last hoffset)
  have hread : LogSource.readFrom log partition start = (⟨fresh, none⟩, log) := by
    rw [hlog start, hsummarizes.filter_next hincreasing hnext]
  unfold RecoveryPoint.sync
  simp only [hloaded, hload, hnext, hread, storeWith]
  cases fresh with
  | nil => exact ⟨stored, loaded, rfl, by rwa [List.append_nil, hrows]⟩
  | cons event fresh =>
    obtain ⟨after, hsave, hafter⟩ :=
      save_eq_rows loaded ((event :: fresh).foldl RecoveryPoint.incorporate stored)
    rw [List.isEmpty_cons, if_neg Bool.false_ne_true, hsave]
    refine ⟨_, after, rfl, ?_⟩
    rw [hafter, hrows]
    exact h.save hload _

/-! ### Syncs between appends -/

theorem isIncreasing_map_kept_iff (now : Instant) :
    IsIncreasing (events.map (Event.kept now)) ↔ IsIncreasing events := by
  constructor
  · rintro ⟨hnull, hpairwise⟩
    rw [List.pairwise_map] at hpairwise
    exact ⟨fun event hevent ↦ hnull (event.kept now) (List.mem_map_of_mem hevent), hpairwise⟩
  · rintro ⟨hnull, hpairwise⟩
    refine ⟨fun event hevent ↦ ?_, List.pairwise_map.mpr hpairwise⟩
    obtain ⟨other, hother, rfl⟩ := List.mem_map.mp hevent
    exact hnull other hother

theorem readsAs_of_keeps {session : FileSession} {last : Offset}
    (h : session.Keeps partition session.log.now events last) :
    ReadsAs session.log partition events := by
  intro start
  change (session.log.read partition start .toTheEnd noObjection, session.log) = _
  rw [h.read, Reading.visit_noObjection]
  rfl

/-- Does to the log what each round tells, with a sync of the stored point at its end. -/
def syncEach {β : Type} [Backend β] (partition : PartitionId) (session : FileSession) (store : β) :
    List (List LogAction) → List (Except Breakdown RecoveryPoint) × FileSession × β
  | [] => ([], session, store)
  | round :: rounds =>
    let session := (runActions (FileSession.act partition) session round).2
    let (result, store, log) := RecoveryPoint.sync store session.log partition
    let (results, session, store) := syncEach partition { session with log } store rounds
    (result :: results, session, store)

/-- A log holds events, and the stored point covers those of them that it held at the last sync. -/
structure Synced (partition : PartitionId) (session : FileSession) (store : β)
    (events : List Event) : Prop where
  keeps : ∀ now, ∃ last, session.Keeps partition now (events.map (Event.kept now)) last
  increasing : IsIncreasing events
  ne_last : ∀ event ∈ events, event.offset ≠ .last
  covers : Covers (LawfulBackend.rows store) partition events

variable {session : FileSession} {store : β}

theorem synced_empty
    (hfree : ∀ key, (range partition).storedStart <+: key → (LawfulBackend.rows store)[key]? = none)
    (root : String) (now : Instant) : Synced partition ⟨.empty root now, none⟩ store [] := by
  refine ⟨fun later ↦ ⟨.null, rfl, [], Directory.holds_empty, ordered_nil later, rfl, rfl,
    fun _ hopen ↦ nomatch hopen⟩, isIncreasing_nil, ?_, covers_nothing hfree⟩
  exact fun _ hevent ↦ absurd hevent List.not_mem_nil

/-- A round adds the events that it has made the log accept, and its sync covers them. -/
theorem Synced.round (h : Synced partition session store events) {round : List LogAction}
    (hstorable : ∀ event, .append event ∈ round → event.IsStorable ∧ event.offset ≠ .last) :
    let run := runActions (FileSession.act partition) session round
    ∃ point after, RecoveryPoint.sync store run.2.log partition = (.ok point, after, run.2.log) ∧
      Synced partition run.2 after (events ++ accepted round run.1) := by
  intro run
  have hkeeps (now : Instant) : ∃ last, run.2.Keeps partition now
      ((events ++ accepted round run.1).map (Event.kept now)) last := by
    obtain ⟨last, hnow⟩ := h.keeps now
    rw [List.map_append]
    exact hnow.run fun event hevent ↦ (hstorable event hevent).1
  have hincreasing : IsIncreasing (events ++ accepted round run.1) := by
    obtain ⟨last, hnow⟩ := h.keeps default
    rw [← isIncreasing_map_kept_iff default, List.map_append]
    exact hnow.isIncreasing_run ((isIncreasing_map_kept_iff default).mpr h.increasing)
      fun event hevent ↦ (hstorable event hevent).1
  have hne : ∀ event ∈ events ++ accepted round run.1, event.offset ≠ .last := by
    intro event hevent
    rcases List.mem_append.mp hevent with hevent | hevent
    · exact h.ne_last event hevent
    · exact (hstorable event (append_mem_of_mem_accepted hevent)).2
  obtain ⟨last, hnow⟩ := hkeeps run.2.log.now
  have hreads := readsAs_of_keeps hnow
  have hcovers := (covers_map_kept_iff run.2.log.now).mpr h.covers
  rw [List.map_append] at hreads
  obtain ⟨point, after, hsync, hafter⟩ := hcovers.sync hreads
    (by rw [← List.map_append]; exact (isIncreasing_map_kept_iff _).mpr hincreasing)
    (List.forall_mem_map.mpr h.ne_last)
  rw [← List.map_append, covers_map_kept_iff] at hafter
  exact ⟨point, after, hsync, hkeeps, hincreasing, hne, hafter⟩

/-- Every sync succeeds, none disturbs the log, and in the end the stored point covers it. -/
theorem Synced.syncEach (h : Synced partition session store events) {rounds : List (List LogAction)}
    (hstorable : ∀ event, .append event ∈ rounds.flatten →
      event.IsStorable ∧ event.offset ≠ .last) :
    let run := runActions (FileSession.act partition) session rounds.flatten
    let synced := RecoveryPoint.syncEach partition session store rounds
    (∀ result ∈ synced.1, ∃ point, result = .ok point) ∧ synced.2.1 = run.2 ∧
      Synced partition run.2 synced.2.2 (events ++ accepted rounds.flatten run.1) := by
  induction rounds generalizing session store events with
  | nil =>
    refine ⟨fun _ hresult ↦ absurd hresult List.not_mem_nil, rfl, ?_⟩
    exact (List.append_nil events).symm ▸ h
  | cons round rounds ih =>
    rw [List.flatten_cons] at hstorable ⊢
    obtain ⟨point, after, hsync, hround⟩ := h.round fun event hevent ↦
      hstorable event (List.mem_append_left _ hevent)
    obtain ⟨hresults, hsession, hsynced⟩ := ih hround fun event hevent ↦
      hstorable event (List.mem_append_right _ hevent)
    simp only [RecoveryPoint.syncEach, hsync, runActions_append, accepted_append,
      ← List.append_assoc]
    exact ⟨List.forall_mem_cons.mpr ⟨⟨point, rfl⟩, hresults⟩, hsession, hsynced⟩

/-- **Syncs at any times come to the same as one.** A log in files is appended to as one likes, with a
sync after each round. Every sync succeeds, and the point stored by the last one is what a single sync
of the whole log would store from nothing: it tells the offset of the last event, and of each workspace
the offset of its last event and the highest number its events used of either sequence. The events
appended are such as a log can hold: their times are valid, and the 32-bit lengths of their entries do
not wrap (`Event.IsStorable`), as they might from 4 GiB on. -/
theorem syncEach_eq_sync {store : β}
    (hfree : ∀ key, (range partition).storedStart <+: key → (LawfulBackend.rows store)[key]? = none)
    (root : String) (now : Instant) {rounds : List (List LogAction)}
    (hstorable : ∀ event, .append event ∈ rounds.flatten →
      event.IsStorable ∧ event.offset ≠ .last) :
    let start : FileSession := ⟨.empty root now, none⟩
    let run := runActions (FileSession.act partition) start rounds.flatten
    let synced := syncEach partition start store rounds
    (∀ result ∈ synced.1, ∃ point, result = .ok point) ∧
    synced.2.1 = run.2 ∧
    ∃ stored reached single,
      (RecoveryPoint.load synced.2.2 partition).1 = .ok stored ∧
      RecoveryPoint.sync store run.2.log partition = (.ok reached, single, run.2.log) ∧
      (RecoveryPoint.load single partition).1 = .ok stored ∧
      stored.changed = ∅ ∧
      stored.Summarizes (accepted rounds.flatten run.1) := by
  intro start run synced
  have hstart : Synced partition start store [] := synced_empty hfree root now
  obtain ⟨hresults, hsession, hsynced⟩ := hstart.syncEach hstorable
  refine ⟨hresults, hsession, ?_⟩
  -- The single sync is one that follows a round of all actions.
  obtain ⟨reached, single, hsingle, hcovers⟩ := hstart.round hstorable
  obtain ⟨stored, hstored, hpartition, hchanged, hsummarizes⟩ := hsynced.covers.load
  obtain ⟨alone, halone, hpartition', hchanged', hsummarizes'⟩ := hcovers.covers.load
  obtain rfl : stored = alone := hsummarizes.eq hsummarizes' (hpartition.trans hpartition'.symm)
    (hchanged.trans hchanged'.symm)
  obtain ⟨_, hload, -⟩ := load_eq_rows synced.2.2 partition
  obtain ⟨_, hload', -⟩ := load_eq_rows single partition
  refine ⟨stored, reached, single, ?_, hsingle, ?_, hchanged, hsummarizes⟩
  · rw [hload, hstored]
  · rw [hload', halone]

theorem rows_empty_free {ι : Type} (range : KeyRange ι) (key : Octets)
    (_hstarts : range.storedStart <+: key) : (LawfulBackend.rows Rows.empty)[key]? = none :=
  Std.ExtTreeMap.getElem?_empty

/-- New records of either sequence, an update and a view, which take no number, and the object of an
argument. The fourth event is one of the null workspace. -/
def varied : List Event :=
  [⟨⟨1⟩, .ofMilliseconds 0, ⟨10⟩, ⟨1⟩,
      [⟨⟨5⟩, .wDoc, true⟩, ⟨⟨7⟩, .cDoc, true⟩, ⟨⟨50⟩, .oDoc, false⟩, ⟨⟨99⟩, .view, true⟩], []⟩,
    ⟨⟨3⟩, .ofMilliseconds 0, ⟨20⟩, ⟨1⟩, [], [⟨⟨4⟩, .object⟩]⟩,
    ⟨⟨4⟩, .ofMilliseconds 0, ⟨10⟩, ⟨2⟩, [⟨⟨3⟩, .oRecord, true⟩], []⟩,
    ⟨⟨6⟩, .ofMilliseconds 0, .null, ⟨9⟩, [⟨⟨100⟩, .wDoc, true⟩], []⟩,
    ⟨⟨8⟩, .ofMilliseconds 0, ⟨10⟩, ⟨3⟩, [⟨⟨9⟩, .cRecord, true⟩], []⟩]

theorem isStorable_varied : ∀ event ∈ varied, event.IsStorable := by
  have hcounted : ∀ event ∈ varied, (Entry.content event).length < UInt32.size := by decide +kernel
  have htime : ∀ event ∈ varied, event.time.IsValid := by decide
  exact fun event hevent ↦ ⟨htime event hevent, Event.isCounted_of_lt (hcounted event hevent)⟩

/-- One round appends nothing, and one begins with an event that comes too late. -/
def scattered : List (List LogAction) :=
  [.openWriter 1 :: (varied.take 2).map .append, [.close],
    .openWriter 1000 :: ((varied.drop 2).take 1).map .append,
    (varied.take 1 ++ varied.drop 3).map .append]

theorem isStorable_scattered {event : Event} (h : .append event ∈ scattered.flatten) :
    event.IsStorable ∧ event.offset ≠ .last := by
  have hmem : event ∈ varied := by
    simp only [scattered, List.flatten_cons, List.flatten_nil, List.mem_append, List.mem_cons,
      List.mem_map, LogAction.append.injEq, exists_eq_right, reduceCtorEq, List.not_mem_nil,
      false_or, or_false] at h
    rcases h with hfirst | hsecond | hagain | hthird
    · exact List.mem_of_mem_take hfirst
    · exact List.mem_of_mem_drop (List.mem_of_mem_take hsecond)
    · exact List.mem_of_mem_take hagain
    · exact List.mem_of_mem_drop hthird
  have hlast : ∀ event ∈ varied, event.offset ≠ .last := by decide
  exact ⟨isStorable_varied event hmem, hlast event hmem⟩

-- Appending takes checksums.
set_option maxRecDepth 20000 in
theorem accepted_scattered :
    accepted scattered.flatten (runActions (FileSession.act ⟨1⟩) ⟨.empty "logs" default, none⟩
      scattered.flatten).1 = varied := by
  decide +kernel

theorem scattered_synced :
    ∃ stored, (RecoveryPoint.load
        (syncEach ⟨1⟩ ⟨.empty "logs" default, none⟩ Rows.empty scattered).2.2 ⟨1⟩).1 = .ok stored ∧
      stored.offset = ⟨8⟩ ∧
      stored.workspaces[(⟨10⟩ : WorkspaceId)]? = some ⟨⟨3⟩, ⟨5⟩, ⟨9⟩⟩ ∧
      stored.workspaces[(⟨20⟩ : WorkspaceId)]? = some ⟨⟨1⟩, ⟨4⟩, .null⟩ := by
  obtain ⟨-, -, stored, -, -, hload, -, -, -, hsummarizes⟩ :=
    syncEach_eq_sync (rows_empty_free (range ⟨1⟩)) "logs" default fun _ ↦ isStorable_scattered
  rw [accepted_scattered] at hsummarizes
  refine ⟨stored, hload, hsummarizes.offset, ?_, ?_⟩
  · rw [hsummarizes.workspaces]
    decide
  · rw [hsummarizes.workspaces]
    decide

end RecoveryPoint

end LogSequencing
