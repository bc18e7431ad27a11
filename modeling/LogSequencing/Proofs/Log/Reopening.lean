import LogSequencing.Proofs.Log.Session

/-!
# Reopening a damaged log

The segments of a log may hold anything: torn entries, zeros, entries whose checksum fails or whose
length is wrong. As long as what a scan can read of them is in order, opening writers and appending
events loses nothing of it, and what is appended is read after it
(`FileSession.reads_everything`). None of it depends on when writers were opened.
-/

set_option autoImplicit false
set_option relaxedAutoImplicit false

namespace LogSequencing

/-! ### What can be read of a directory -/

namespace Directory

variable {directory : Directory} {files : List LogFile} {now : Instant}

/-- The events that a scan of a segment finds. -/
def segmentEvents (directory : Directory) (now : Instant) (segment : Segment) : List Event :=
  ((directory.scan now segment.name).toOption.map Scan.events).getD []

/-- The events that scans of all segments find. -/
def readable (directory : Directory) (now : Instant) : List Event :=
  directory.segments.flatMap (directory.segmentEvents now)

/-- What can be read of the segments is in order: no event lies before the start of its segment, and
none at or behind the start of a later one. -/
structure IsOrdered (directory : Directory) (now : Instant) : Prop where
  inside : ∀ segment ∈ directory.segments,
    ((directory.segmentEvents now segment).Pairwise fun event later ↦ event.offset ≤ later.offset) ∧
      ∀ event ∈ directory.segmentEvents now segment, segment.start ≤ event.offset
  before : directory.segments.Pairwise fun segment later ↦
    ∀ event ∈ directory.segmentEvents now segment, event.offset < later.start

theorem Holds.segmentEvents_eq (h : directory.Holds files) (now : Instant) {file : LogFile}
    (hfile : file ∈ files) :
    directory.segmentEvents now file.segment = file.events now := by
  unfold segmentEvents scan
  rw [LogFile.segment, h.contents_eq hfile]
  rfl

theorem Holds.readable_eq (h : directory.Holds files) :
    directory.readable now = eventsOf now files := by
  unfold readable eventsOf
  rw [h.segments_eq, List.flatMap_map]
  exact List.flatMap_congr fun _ hfile ↦ h.segmentEvents_eq now hfile

theorem Holds.isOrdered_iff (h : directory.Holds files) :
    directory.IsOrdered now ↔ Ordered now files := by
  have hevents (file : LogFile) (hfile : file ∈ files) := h.segmentEvents_eq now hfile
  constructor
  · rintro ⟨hinside, hbefore⟩
    rw [h.segments_eq] at hinside hbefore
    refine ⟨?_, (List.pairwise_map.mp hbefore).imp_of_mem ?_⟩
    · intro file hfile
      have hfileInside := hinside file.segment (List.mem_map_of_mem hfile)
      rwa [hevents file hfile] at hfileInside
    · intro file later hfile _ hlt
      rwa [hevents file hfile] at hlt
  · rintro ⟨hinside, hbefore⟩
    refine ⟨?_, ?_⟩
    · intro segment hsegment
      rw [h.segments_eq] at hsegment
      obtain ⟨file, hfile, rfl⟩ := List.mem_map.mp hsegment
      rw [hevents file hfile]
      exact hinside file hfile
    · rw [h.segments_eq]
      refine List.pairwise_map.mpr (hbefore.imp_of_mem ?_)
      intro file later hfile _ hlt
      rwa [hevents file hfile]

end Directory

/-- The order of events does not depend on when they are read. -/
theorem Ordered.at {files : List LogFile} {scanned : Instant} (h : Ordered scanned files)
    (now : Instant) : Ordered now files := by
  have hoffsets (file : LogFile) :
      (file.events now).map Event.offset = (file.events scanned).map Event.offset :=
    (Scan.scan_offsets now scanned file.octets).2
  have hmem (file : LogFile) (property : Offset → Prop)
      (hall : ∀ event ∈ file.events scanned, property event.offset) :
      ∀ event ∈ file.events now, property event.offset := by
    intro event hevent
    have hoffset := List.mem_map_of_mem (f := Event.offset) hevent
    rw [hoffsets file] at hoffset
    obtain ⟨other, hother, heq⟩ := List.mem_map.mp hoffset
    exact heq ▸ hall other hother
  refine ⟨fun file hfile ↦ ⟨?_, hmem file (file.start ≤ ·) (h.inside file hfile).2⟩,
    h.before.imp fun {file later} hlt ↦ hmem file (· < later.start) hlt⟩
  have hpairwise := List.pairwise_map.mpr (h.inside file hfile).1
  rw [← hoffsets file] at hpairwise
  exact List.pairwise_map.mp hpairwise

namespace FileSession

variable {partition : PartitionId}

theorem isSome_directory?_openWriter {log : FileLog} (h : (log.directory? partition).isSome)
    (maxSegmentSize : Nat) :
    ((log.openWriter partition maxSegmentSize).2.directory? partition).isSome := by
  have hset (directory : Directory) :
      ((log.setDirectory partition directory).directory? partition).isSome :=
    Option.isSome_iff_exists.mpr ⟨directory, directory?_setDirectory _ _ _⟩
  unfold FileLog.openWriter
  split
  · exact h
  · split <;> exact hset _

/-- No action removes the directory of a partition. -/
theorem isSome_directory?_act {session : FileSession}
    (h : (session.log.directory? partition).isSome) (action : LogAction) :
    ((session.act partition action).2.log.directory? partition).isSome := by
  cases action with
  | openWriter maxSegmentSize =>
    have hopen := isSome_directory?_openWriter h maxSegmentSize
    rcases hopened : session.log.openWriter partition maxSegmentSize with ⟨_ | _, after⟩
    all_goals
      rw [hopened] at hopen
      simpa only [act, hopened] using hopen
  | append event =>
    cases hwriter : session.writer? with
    | none => simpa only [act, hwriter] using h
    | some writer =>
      simp only [act, hwriter, FileLog.append, directory?_setDirectory, Option.isSome_some]
  | _ => exact h

theorem isSome_directory?_run (session : FileSession)
    (h : (session.log.directory? partition).isSome) (actions : List LogAction) :
    ((runActions (act partition) session actions).2.log.directory? partition).isSome := by
  induction actions generalizing session with
  | nil => exact h
  | cons action actions ih => exact ih _ (isSome_directory?_act h action)

/-- Before a writer is opened, a log keeps what can be read of its directory. -/
theorem keeps_start {log : FileLog} {directory : Directory} {scanned : Instant}
    (hdirectory : log.directory? partition = some directory)
    (hunobstructed : log.obstacle? partition = none) (hcanonical : directory.IsCanonical)
    (hordered : directory.IsOrdered scanned) (now : Instant) :
    ∃ last, Keeps partition ⟨log, none⟩ now (directory.readable now) last := by
  obtain ⟨files, hholds⟩ := hcanonical.exists_holds
  have hfiles : Ordered scanned files := hholds.isOrdered_iff.mp hordered
  have heq : FileSession.directory partition ⟨log, none⟩ = directory := directory_eq hdirectory
  refine ⟨lastOffsetOf now files, hunobstructed, files, ?_⟩
  rw [heq]
  exact ⟨hholds, hfiles.at now, hholds.readable_eq.symm, rfl, fun _ hopen ↦ nomatch hopen⟩

/-- Whatever a directory of canonically named segments holds, if what can be read of it is in order,
then after any actions a read finds, from any offset on, the events that could be read before and then
those that were accepted. A writer can always be opened, and it accepts every event that can be
encoded and whose offset belongs behind all segments and all events.

The events appended are such as a log can hold: their times are valid, and the 32-bit lengths of their
entries do not wrap (`Event.IsStorable`). An event of 4 GiB or more may be accepted and yet be lost. -/
theorem reads_everything {log : FileLog} {directory : Directory} {scanned : Instant}
    (hdirectory : log.directory? partition = some directory)
    (hunobstructed : log.obstacle? partition = none) (hcanonical : directory.IsCanonical)
    (hordered : directory.IsOrdered scanned) {actions : List LogAction}
    (hstorable : ∀ event, .append event ∈ actions → event.IsStorable) :
    let run := runActions (act partition) ⟨log, none⟩ actions
    let events (now : Instant) := directory.readable now ++ (accepted actions run.1).map (Event.kept now)
    ∃ after, run.2.log.directory? partition = some after ∧
      (∀ now start, after.readEvents now start .toTheEnd =
        .ok ((events now).filter (start ≤ ·.offset))) ∧
      (∀ maxSegmentSize, ∃ opened,
        run.2.act partition (.openWriter maxSegmentSize) = (.result (.ok ()), opened) ∧
          opened.writer?.isSome) ∧
      (run.2.writer?.isSome → ∃ last,
        (∀ offset, last < offset ↔ .null < offset ∧
          (∀ segment ∈ after.segments, segment.start ≤ offset) ∧
          ∀ event ∈ events scanned, event.offset < offset) ∧
        ∀ event : Event, event.IsStorable →
          (run.2.act partition (.append event)).1 = .result (appendResult last event)) := by
  intro run events
  have hrun (now : Instant) : ∃ last, run.2.Keeps partition now (events now) last := by
    obtain ⟨last, hstart⟩ := keeps_start hdirectory hunobstructed hcanonical hordered now
    exact hstart.run hstorable
  have hsome : (run.2.log.directory? partition).isSome := isSome_directory?_run ⟨log, none⟩
    (Option.isSome_iff_exists.mpr ⟨directory, hdirectory⟩) actions
  obtain ⟨after, hafter⟩ := Option.isSome_iff_exists.mp hsome
  refine ⟨after, hafter, ?_, ?_, ?_⟩
  · intro now start
    obtain ⟨last, hkeeps⟩ := hrun now
    rw [← directory_eq hafter]
    exact hkeeps.readEvents_eq start .toTheEnd
  · intro maxSegmentSize
    obtain ⟨last, hkeeps⟩ := hrun scanned
    obtain ⟨opened, hopened, -, hwriter, -⟩ := hkeeps.openWriter maxSegmentSize
    exact ⟨opened, hopened, hwriter⟩
  · intro hopen
    obtain ⟨writer, hwriter⟩ := Option.isSome_iff_exists.mp hopen
    obtain ⟨last, hkeeps⟩ := hrun scanned
    refine ⟨last, ?_, fun event hevent ↦ ?_⟩
    · rw [← directory_eq hafter]
      exact hkeeps.last_lt_iff
    · rcases hkeeps.append hwriter hevent with ⟨error, hresult, hact⟩ | ⟨hresult, after, hact, -⟩
      · rw [hact, hresult]
      · rw [hact, hresult]

/-! ### A damaged segment -/

def entryOctets (event : Event) : Octets := (Entry.encode event).toOption.getD []

/-- A damaged entry between two sound ones, and a torn one at the end. -/
def damagedFile : LogFile :=
  ⟨.first, entryOctets (.blank 1) ++ [5, 0, 0, 0, 0, 0, 0, 0, 0xff] ++
    entryOctets (.blank 3) ++ (entryOctets (.blank 4)).take 30⟩

def damaged : Directory :=
  (∅ : Directory).insert (Segment.fileName .first) (.file damagedFile.octets)

def damagedLog : FileLog := (FileLog.empty "logs" default).setDirectory ⟨1⟩ damaged

/-- The first event comes too late. The last one goes to a new segment. -/
def repairing : List LogAction :=
  [.openWriter 1000, .append (.blank 3), .append (.blank 4), .close, .openWriter 10,
    .append (.blank 9)]

theorem holds_damaged : damaged.Holds ([] ++ [damagedFile]) :=
  Directory.holds_empty.insert_next damagedFile fun _ hother ↦ absurd hother List.not_mem_nil

-- The checksum of an entry is a fold over all of its octets.
set_option maxRecDepth 20000 in
theorem events_damagedFile : damagedFile.events default = [.blank 1, .blank 3] := by
  decide +kernel

set_option maxRecDepth 20000 in
theorem accepted_repairing :
    accepted repairing (runActions (FileSession.act ⟨1⟩) ⟨damagedLog, none⟩ repairing).1 =
      [.blank 4, .blank 9] := by
  decide +kernel

theorem repaired_reads_everything :
    ∃ after, (runActions (FileSession.act ⟨1⟩) ⟨damagedLog, none⟩ repairing).2.log.directory? ⟨1⟩ =
        some after ∧
      after.readEvents default ⟨2⟩ .toTheEnd =
        .ok [.blank 3, .blank 4, .blank 9] := by
  have hdirectory : damagedLog.directory? ⟨1⟩ = some damaged := directory?_setDirectory _ _ _
  have hordered : Ordered default ([] ++ [damagedFile]) := by
    refine ordered_append_singleton.mpr ⟨ordered_nil default, ?_⟩
    rw [events_damagedFile]
    decide
  have hstorable : ∀ event, .append event ∈ repairing → event.IsStorable := by
    intro event hevent
    have hblank : event = .blank 3 ∨ event = .blank 4 ∨ event = .blank 9 := by
      simpa [repairing] using hevent
    rcases hblank with rfl | rfl | rfl <;> exact Event.isStorable_blank _
  obtain ⟨after, hafter, hread, -⟩ := reads_everything hdirectory rfl holds_damaged.canonical
    (holds_damaged.isOrdered_iff.mpr hordered) hstorable
  refine ⟨after, hafter, (hread default ⟨2⟩).trans (congrArg Except.ok ?_)⟩
  dsimp only
  rw [holds_damaged.readable_eq, eventsOf_append_singleton, events_damagedFile,
    accepted_repairing]
  decide

end FileSession

end LogSequencing
