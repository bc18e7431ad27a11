import LogSequencing.Checkpoint.Replay
import LogSequencing.Proofs.Counters
import LogSequencing.Proofs.Log.Damage
import LogSequencing.Proofs.Log.Memory
import LogSequencing.Proofs.Log.Partitions
import LogSequencing.Proofs.Log.Reopening

/-!
# Going on after damage

A log that was written without faults is a list of files, all of whole entries. Then entries are
corrupted, and the last file is cut (`DamagedTo`). What can still be read is a part of what could be
read before (`DamagedTo.loses`) and as much in order (`Ordered.of_loses`), so that the log can be
replayed, and a writer can be opened on it.

The two do not agree about where the log ends. A replay counts what can be read of all files, or the
checkpoint. A writer never goes back behind the start of the last file, even if nothing of it can be
read. So the next offset after a replay is refused exactly if a file begins behind it
(`FileLog.refuses_next_iff`): nothing of that file can be read, the event before it cannot be read
either, and the checkpoint covers neither (`FileLog.refuses_next`).
-/

set_option autoImplicit false
set_option relaxedAutoImplicit false

namespace LogSequencing

/-! ### Damage to a file -/

namespace Scan

/-- Entries of a file, of which any are corrupted. -/
inductive Corrupts : Octets → Octets → Prop where
  | nil : Corrupts [] []
  | keep {entry rest left : Octets} (hframed : Entry.IsFramed entry) (hrest : Corrupts rest left) :
      Corrupts (entry ++ rest) (entry ++ left)
  | damage {entry damaged rest left : Octets} (hframed : Entry.IsFramed entry)
      (hcorrupted : Entry.IsCorrupted entry damaged) (hrest : Corrupts rest left) :
      Corrupts (entry ++ rest) (damaged ++ left)

theorem Corrupts.events_sublist {octets left : Octets} (h : Corrupts octets left) (now : Instant) :
    (ofOctets now left).events.Sublist (ofOctets now octets).events := by
  induction h with
  | nil => exact List.Sublist.refl _
  | keep hframed _ ih =>
    rw [ofOctets_entry_append now hframed, ofOctets_entry_append now hframed, cons, cons]
    exact ih.append_left _
  | damage hframed hcorrupted _ ih =>
    rw [ofOctets_entry_append now hframed, ofOctets_corrupted_append now hframed hcorrupted, cons,
      cons]
    exact ih.trans (List.sublist_append_right _ _)

/-- Octets behind those of a file take nothing away from what can be read. -/
theorem events_prefix_append (now : Instant) (octets more : Octets) :
    (ofOctets now octets).events <+: (ofOctets now (octets ++ more)).events := by
  induction octets using induction with
  | ends octets hframe =>
    rw [ofOctets_of_frame?_eq_none now hframe]
    exact List.nil_prefix
  | goesOn content rest hne hmax hframe ih =>
    have hlong : 4 ≤ content.length + rest.length := by
      by_contra hshort
      have hnone : frame? (Octets.ofNatLE 4 content.length ++ (content ++ rest)) = none := by
        apply frame?_of_length_lt
        simp only [List.length_append, Octets.length_ofNatLE]
        omega
      exact absurd (hnone.symm.trans hframe) nofun
    have hmore : frame? (Octets.ofNatLE 4 content.length ++ (content ++ (rest ++ more))) =
        some (content.length, content ++ (rest ++ more)) := by
      apply frame?_append hne hmax
      rw [List.length_append]
      omega
    rw [List.append_assoc, List.append_assoc, ofOctets_append now hframe, ofOctets_append now hmore,
      cons, cons]
    exact (List.prefix_append_right_inj _).mpr ih

end Scan

namespace LogFile

def Corrupts (file left : LogFile) : Prop :=
  left.start = file.start ∧ Scan.Corrupts file.octets left.octets

def cut (kept : Nat) (file : LogFile) : LogFile := ⟨file.start, file.octets.take kept⟩

/-- Nothing can be read of `left` that could not be read of `file`. -/
def Loses (now : Instant) (file left : LogFile) : Prop :=
  left.start = file.start ∧ (left.events now).Sublist (file.events now)

theorem Corrupts.loses {file left : LogFile} (h : file.Corrupts left) (now : Instant) :
    file.Loses now left :=
  ⟨h.1, h.2.events_sublist now⟩

theorem Corrupts.cut_loses {file left : LogFile} (h : file.Corrupts left) (kept : Nat)
    (now : Instant) : file.Loses now (left.cut kept) := by
  have hcut : ((left.cut kept).events now).Sublist (left.events now) := by
    have hprefix :=
      Scan.events_prefix_append now (left.octets.take kept) (left.octets.drop kept)
    rw [List.take_append_drop] at hprefix
    exact hprefix.sublist
  exact ⟨h.1, hcut.trans (h.2.events_sublist now)⟩

end LogFile

/-! ### Damage to a log -/

/-- Entries are corrupted in any of the files of a log, and the last file is cut after that. -/
inductive DamagedTo : List LogFile → List LogFile → Prop where
  | intro {front left : List LogFile} {last rest : LogFile} (kept : Nat)
      (hfront : List.Forall₂ LogFile.Corrupts front left) (hlast : last.Corrupts rest) :
      DamagedTo (front ++ [last]) (left ++ [rest.cut kept])

theorem DamagedTo.loses {files left : List LogFile} (h : DamagedTo files left) (now : Instant) :
    List.Forall₂ (LogFile.Loses now) files left := by
  obtain ⟨kept, hfront, hlast⟩ := h
  exact List.rel_append (hfront.imp fun _ _ hfile ↦ hfile.loses now)
    (.cons (hlast.cut_loses kept now) .nil)

/-- The events that are left are in order if all were. -/
theorem Ordered.of_loses {now : Instant} {files left : List LogFile} (h : Ordered now files)
    (hloses : List.Forall₂ (LogFile.Loses now) files left) : Ordered now left := by
  obtain ⟨hlength, hget⟩ := List.forall₂_iff_get.mp hloses
  refine ⟨fun file hfile ↦ ?_, List.pairwise_iff_getElem.mpr fun i j hi hj hij ↦ ?_⟩
  · obtain ⟨i, hi, rfl⟩ := List.getElem_of_mem hfile
    obtain ⟨hstart, hevents⟩ := hget i (hlength ▸ hi) hi
    obtain ⟨hpairwise, hinside⟩ := h.inside files[i] (List.getElem_mem _)
    refine ⟨hpairwise.sublist hevents, fun event hevent ↦ ?_⟩
    exact Std.le_trans (Std.le_of_eq hstart) (hinside event (hevents.subset hevent))
  · obtain ⟨-, hevents⟩ := hget i (hlength ▸ hi) hi
    obtain ⟨hstart, -⟩ := hget j (hlength ▸ hj) hj
    have hbefore := List.pairwise_iff_getElem.mp h.before i j (hlength ▸ hi) (hlength ▸ hj) hij
    intro event hevent
    exact Std.lt_of_lt_of_le (hbefore event (hevents.subset hevent)) (Std.le_of_eq hstart.symm)

/-! ### What is refused -/

theorem Writer.rotate_eq_error {writer : Writer} {directory : Directory} {start : Offset}
    {error : LogError} (h : writer.rotate directory start none = .error error) :
    error = .ofPathFault .isDirectory := by
  cases hfile : createFile directory (Segment.fileName start) with
  | ok created =>
    have hrotate : writer.rotate directory start none =
        .ok ({ writer with segment := ⟨Segment.fileName start, start, 0⟩ }, created) := by
      simp only [rotate, hfile]
      rfl
    cases hrotate.symm.trans h
  | error fault =>
    have hrotate : writer.rotate directory start none = .error fault := by
      simp only [rotate, hfile]
      rfl
    obtain rfl := Except.error.inj (hrotate.symm.trans h)
    unfold createFile at hfile
    split at hfile
    · exact (Except.error.inj hfile).symm
    · cases hfile

/-- The error of an offset that comes too late means just that. -/
theorem Writer.append_eq_regression_iff (writer : Writer) (directory : Directory) (event : Event) :
    (writer.append directory event none).1 =
        .error (.offsetRegression event.offset writer.last) ↔
      event.offset ≤ writer.last := by
  refine ⟨fun h ↦ ?_, fun hle ↦ congrArg Prod.fst (append_of_le hle none)⟩
  by_contra hlt
  rw [append, if_neg hlt] at h
  cases hencode : Entry.encode event with
  | error error =>
    rw [hencode] at h
    obtain rfl : error = _ := Except.error.inj h
    unfold Entry.encode at hencode
    split at hencode <;> cases hencode
  | ok entry =>
    simp only [hencode, writeEntry] at h
    split at h
    · split at h
      · rename_i error hrotate
        obtain rfl := rotate_eq_error hrotate
        cases Except.error.inj h
      · cases h
    · cases h

section Replay

variable {β : Type} [Backend β] {store : β} {partition : PartitionId} {checkpoint : Counters}

/-- A replay raises the checkpoint to cover what can be read of a log. -/
theorem FileSession.Keeps.replay_eq {log : FileLog} {events : List Event} {last : Offset}
    (h : Keeps partition ⟨log, none⟩ log.now events last)
    (hcheckpoint : (Checkpoint.readPartition store partition).1 = .ok checkpoint) :
    (Checkpoint.replay store log partition).1 =
      .ok (checkpoint.observeAll (events.filter (checkpoint.offset ≤ ·.offset))) := by
  have hread := h.read checkpoint.offset .toTheEnd noObjection
  rw [Reading.visit_noObjection] at hread
  rcases hrows : Checkpoint.readPartition store partition with ⟨result, after⟩
  rw [hrows] at hcheckpoint
  obtain rfl : result = .ok checkpoint := hcheckpoint
  unfold Checkpoint.replay
  simp only [hrows, LogSource.readFrom]
  rw [hread]
  rfl

theorem Counters.offset_observeAll_le_iff (counters : Counters) (events : List Event)
    (offset : Offset) :
    (counters.observeAll (events.filter (counters.offset ≤ ·.offset))).offset ≤ offset ↔
      counters.offset ≤ offset ∧ ∀ event ∈ events, event.offset ≤ offset := by
  have hle (a : Offset) : a ≤ offset ↔ a.val.toNat ≤ offset.val.toNat := UInt64.le_iff_toNat_le
  rw [hle, hle, ← lastOf_offset _ .null, ← lastOf_offset _ .null, lastOf_observeAll_le_iff]
  refine and_congr_right fun hcheckpoint ↦ ⟨fun h event hevent ↦ ?_, ?_⟩
  · by_cases hearly : counters.offset ≤ event.offset
    · exact (hle _).mpr (h event (List.mem_filter.mpr ⟨hevent, decide_eq_true hearly⟩) _ rfl)
    · -- An event before the checkpoint is not read, but covered by it.
      exact Std.le_trans (Std.le_of_lt (Std.not_le.mp hearly)) ((hle _).mpr hcheckpoint)
  · rintro h event hevent _ rfl
    exact (hle _).mp (h event (List.mem_filter.mp hevent).1)

end Replay

theorem FileSession.Keeps.last_eq {partition : PartitionId} {session : FileSession} {now : Instant}
    {events : List Event} {last : Offset} (h : session.Keeps partition now events last)
    {writer : Writer} (hopen : session.writer? = some writer) : writer.last = last := by
  obtain ⟨files, -, -, -, rfl, hwriter⟩ := h.exists_files
  exact (hwriter writer hopen).1.last_eq

/-- A log that was written without faults and then damaged is replayed to the greatest offset that
is checkpointed or can still be read. A writer that is opened on it refuses the event of the next
offset exactly if a segment begins behind that. -/
theorem FileLog.refuses_next_iff {β : Type} [Backend β] {root : String} {now : Instant}
    {partition : PartitionId} {actions : List LogAction}
    (hstorable : ∀ event, .append event ∈ actions → event.IsStorable)
    {written damaged : Directory} {files left : List LogFile}
    (hwritten : (runActions (FileSession.act partition) ⟨.empty root now, none⟩
      actions).2.log.directory? partition = some written)
    (hfiles : written.Holds files) (hdamage : DamagedTo files left) (hleft : damaged.Holds left)
    {store : β} {checkpoint : Counters}
    (hcheckpoint : (Checkpoint.readPartition store partition).1 = .ok checkpoint)
    (maxSegmentSize : Nat) :
    let log := (runActions (FileSession.act partition) ⟨.empty root now, none⟩
      actions).2.log.setDirectory partition damaged
    ∃ counters writer opened,
      (Checkpoint.replay store log partition).1 = .ok counters ∧
      log.openWriter partition maxSegmentSize = (.ok writer, opened) ∧
      (∀ offset, counters.offset ≤ offset ↔
        checkpoint.offset ≤ offset ∧ ∀ event ∈ damaged.readable log.now, event.offset ≤ offset) ∧
      ∀ event : Event, counters.offset.next? = some event.offset →
        ((opened.append partition writer event none).1 =
            .error (.offsetRegression event.offset writer.last) ↔
          ∃ segment ∈ damaged.segments, event.offset < segment.start) := by
  intro log
  obtain ⟨last, hrun⟩ := ((FileSession.agrees_empty partition root now).keeps log.now).run hstorable
  obtain ⟨held, hheld, hordered, -⟩ := hrun.exists_files
  rw [FileSession.directory_eq hwritten] at hheld
  have hleftOrdered : Ordered log.now left :=
    (hfiles.isOrdered_iff.mp (hheld.isOrdered_iff.mpr hordered)).of_loses (hdamage.loses log.now)
  have hdirectory : log.directory? partition = some damaged :=
    FileSession.directory?_setDirectory _ _ _
  obtain ⟨last, hkeeps⟩ := FileSession.keeps_start hdirectory hrun.unobstructed hleft.canonical
    (hleft.isOrdered_iff.mpr hleftOrdered) log.now
  obtain ⟨session, hact, hopened, hwriter, -⟩ := hkeeps.openWriter maxSegmentSize
  obtain ⟨writer, after, hopen, rfl⟩ := FileSession.openWriter_of_act hact
  have hcounters := checkpoint.offset_observeAll_le_iff (damaged.readable log.now)
  generalize hreplayed : checkpoint.observeAll _ = counters at hcounters
  refine ⟨counters, writer, log.setDirectory partition after,
    hreplayed ▸ hkeeps.replay_eq hcheckpoint, hopen, hcounters, fun event hnext ↦ ?_⟩
  have hlater : counters.offset < event.offset := by
    refine UInt64.lt_iff_toNat_lt.mpr ?_
    rw [Serial.toNat_of_next? hnext]
    exact Nat.lt_succ_self _
  have hread := ((hcounters counters.offset).mp (Std.le_refl _)).2
  have hlast := hkeeps.last_lt_iff event.offset
  rw [FileSession.directory_eq hdirectory] at hlast
  have hnull : (.null : Offset) < event.offset :=
    Std.lt_of_le_of_lt (UInt64.le_iff_toNat_le.mpr (Nat.zero_le _)) hlater
  calc _ ↔ event.offset ≤ writer.last := Writer.append_eq_regression_iff _ _ _
    _ ↔ ¬ last < event.offset := by rw [hopened.last_eq rfl, Std.not_lt]
    _ ↔ ¬ ∀ segment ∈ damaged.segments, segment.start ≤ event.offset := by
      rw [hlast]
      refine not_congr ⟨fun h ↦ h.2.1, fun h ↦ ⟨hnull, h, fun read hevent ↦ ?_⟩⟩
      exact Std.lt_of_le_of_lt (hread read hevent) hlater
    _ ↔ ∃ segment ∈ damaged.segments, event.offset < segment.start := by
      push Not
      simp only [Std.not_le]

/-! ### A log that nothing can be appended to -/

/-- Three events, each in a segment of its own. -/
def segmented : List LogAction :=
  [.openWriter 1, .append (.blank 1), .append (.blank 2), .append (.blank 3)]

def segmentedFile (offset : UInt64) : LogFile := ⟨⟨offset⟩, Entry.encoded (.blank offset)⟩

/-- The file of the second event with another offset in its payload. -/
def overwrittenFile : LogFile := ⟨⟨2⟩, Scan.overwritten⟩

def directoryOf (files : List LogFile) : Directory :=
  files.foldl (fun directory file ↦
    directory.insert (Segment.fileName file.start) (.file file.octets)) ∅

def segmentedFiles : List LogFile := [segmentedFile 1, segmentedFile 2, segmentedFile 3]

def unreadableFiles : List LogFile :=
  [segmentedFile 1, overwrittenFile, (segmentedFile 3).cut 20]

theorem holds_directoryOf {files : List LogFile}
    (h : files.Pairwise fun file later ↦ file.start < later.start) :
    (directoryOf files).Holds files := by
  induction files using List.reverseRecOn with
  | nil => exact Directory.holds_empty
  | append_singleton files file ih =>
    obtain ⟨hfiles, -, hlast⟩ := List.pairwise_append.mp h
    rw [directoryOf, List.foldl_append]
    exact (ih hfiles).insert_next file fun other hother ↦ hlast other hother file List.mem_cons_self

-- Opening and appending takes checksums.
set_option maxRecDepth 20000 in
theorem directory_segmented :
    (runActions (FileSession.act ⟨1⟩) ⟨.empty "logs" default, none⟩ segmented).2.log.directory? ⟨1⟩ =
      some (directoryOf segmentedFiles) := by
  decide +kernel

set_option maxRecDepth 20000 in
theorem eventsOf_unreadableFiles : eventsOf default unreadableFiles = [.blank 1] := by
  decide +kernel

theorem damagedTo_unreadableFiles : DamagedTo segmentedFiles unreadableFiles := by
  have hsame (offset : UInt64) : (segmentedFile offset).Corrupts (segmentedFile offset) := by
    have hkeep := Scan.Corrupts.keep (Entry.isFramed_encoded_blank offset) .nil
    rw [List.append_nil] at hkeep
    exact ⟨rfl, hkeep⟩
  have hoverwritten : (segmentedFile 2).Corrupts overwrittenFile := by
    have hsound : Entry.IsSound ((Entry.encoded (.blank 2)).drop 4) :=
      (Entry.drop_encoded (.blank 2)).symm ▸ Entry.isSound_content (.blank 2)
    have hdamage := Scan.Corrupts.damage (Entry.isFramed_encoded_blank 2)
      (Scan.isLocalDamage_overwritten.isCorrupted hsound) .nil
    rw [List.append_nil, List.append_nil] at hdamage
    exact ⟨rfl, hdamage⟩
  exact .intro 20 (.cons (hsame 1) (.cons hoverwritten .nil)) (hsame 3)

/-- The second event cannot be read, nor the third, which was cut off. There is no checkpoint, so
that the second offset comes next, but the writer goes on after the second. -/
theorem FileLog.refuses_next :
    let log := (runActions (FileSession.act ⟨1⟩) ⟨.empty "logs" default, none⟩
      segmented).2.log.setDirectory ⟨1⟩ (directoryOf unreadableFiles)
    ∃ counters writer opened,
      (Checkpoint.replay (∅ : Rows) log ⟨1⟩).1 = .ok counters ∧
      counters.offset.next? = some (Event.blank 2).offset ∧
      log.openWriter ⟨1⟩ 1 = (.ok writer, opened) ∧
      (opened.append ⟨1⟩ writer (.blank 2) none).1 =
        .error (.offsetRegression ⟨2⟩ writer.last) := by
  intro log
  have hstorable : ∀ event, .append event ∈ segmented → event.IsStorable := by
    intro event hevent
    have hblank : event = .blank 1 ∨ event = .blank 2 ∨ event = .blank 3 := by
      simpa [segmented] using hevent
    rcases hblank with rfl | rfl | rfl <;> exact Event.isStorable_blank _
  have hleft : (directoryOf unreadableFiles).Holds unreadableFiles :=
    holds_directoryOf (by decide)
  have hcheckpoint : (Checkpoint.readPartition (∅ : Rows) ⟨1⟩).1 = .ok .empty := by decide +kernel
  obtain ⟨counters, writer, opened, hreplay, hopen, hcounters, happend⟩ :=
    refuses_next_iff hstorable directory_segmented (holds_directoryOf (by decide))
      damagedTo_unreadableFiles hleft hcheckpoint 1
  have hnow : log.now = default := by decide +kernel
  rw [hleft.readable_eq, hnow, eventsOf_unreadableFiles] at hcounters
  have hoffset : counters.offset = ⟨1⟩ := by
    refine Std.le_antisymm ((hcounters ⟨1⟩).mpr ⟨by decide, ?_⟩) ?_
    · exact List.forall_mem_singleton.mpr (Std.le_refl _)
    · exact ((hcounters _).mp (Std.le_refl _)).2 (.blank 1) List.mem_cons_self
  have hnext : counters.offset.next? = some (Event.blank 2).offset := by
    rw [hoffset]
    decide
  refine ⟨counters, writer, opened, hreplay, hnext, hopen, (happend _ hnext).mpr ?_⟩
  rw [hleft.segments_eq]
  exact ⟨((segmentedFile 3).cut 20).segment, List.mem_map_of_mem (by simp [unreadableFiles]),
    by decide⟩

end LogSequencing
