import LogSequencing.Proofs.Log.Directory
import LogSequencing.Proofs.Log.Memory

/-!
# Reading onward

A directory that has been read to its end is read again from a later offset, maybe at another time.
Segments that were skipped are skipped again, and the others can be scanned again. So the second read
succeeds as well, and finds only offsets that the first one found (`Directory.readEvents_onward`).
Behind the last of them there is nothing (`FileLog.readFrom_onward`). None of this takes the segments
to be in order or whole.
-/

set_option autoImplicit false
set_option relaxedAutoImplicit false

namespace LogSequencing

namespace Directory

variable {directory : Directory} {now later : Instant} {start next : Offset}

/-- A file can be scanned at any time, and the same offsets are found. -/
theorem scan_later {name : String} {scan : Scan} (h : directory.scan now name = .ok scan)
    (later : Instant) : ∃ again, directory.scan later name = .ok again ∧
      again.events.map Event.offset = scan.events.map Event.offset := by
  unfold Directory.scan at h ⊢
  cases hfile : directory.fileOctets name with
  | error error =>
    rw [hfile] at h
    contradiction
  | ok octets =>
    rw [hfile] at h
    obtain rfl := Except.ok.inj h
    exact ⟨_, rfl, (Scan.scan_offsets later now octets).2⟩

/-- The first segment is skipped, or it is scanned and what is wanted of it is found. -/
theorem collect_cons_eq_ok_iff {segment : Segment} {rest : List Segment} {found events : List Event} :
    directory.collect now start .toTheEnd found (segment :: rest) = .ok events ↔
      if rest.head?.any (·.start ≤ start) then
        directory.collect now start .toTheEnd found rest = .ok events
      else
        ∃ scan, directory.scan now segment.name = .ok scan ∧
          directory.collect now start .toTheEnd
            (found ++ scan.events.filter (start ≤ ·.offset)) rest = .ok events := by
  rw [collect]
  split
  · rfl
  · cases hscan : directory.scan now segment.name with
    | error error => simp [bind, Except.bind]
    | ok scan => simp [bind, Except.bind, ReadLimit.take, ReadLimit.isReached]

/-- What is found has the offset that was asked for, or a greater one. -/
theorem start_le_of_collect {segments : List Segment} {found events : List Event}
    (h : directory.collect now start .toTheEnd found segments = .ok events)
    (hfound : ∀ event ∈ found, start ≤ event.offset) : ∀ event ∈ events, start ≤ event.offset := by
  induction segments generalizing found with
  | nil =>
    obtain rfl := Except.ok.inj h
    exact hfound
  | cons segment rest ih =>
    rw [collect_cons_eq_ok_iff] at h
    split at h
    · exact ih h hfound
    · obtain ⟨scan, -, hrest⟩ := h
      refine ih hrest fun event hevent ↦ ?_
      rcases List.mem_append.mp hevent with hevent | hevent
      · exact hfound event hevent
      · exact of_decide_eq_true (List.mem_filter.mp hevent).2

/-- A segment that is skipped is skipped from every later offset on. -/
theorem skips_onward (hle : start ≤ next) {rest : List Segment}
    (h : rest.head?.any (·.start ≤ start) = true) : rest.head?.any (·.start ≤ next) = true := by
  cases rest with
  | nil => exact h
  | cons successor rest => exact decide_eq_true (Std.le_trans (of_decide_eq_true h) hle)

/-- Whatever is wanted of a file from a later offset on was wanted before. -/
theorem wanted_onward (hle : start ≤ next) {scan again : Scan}
    (hoffsets : again.events.map Event.offset = scan.events.map Event.offset) {event : Event}
    (h : event ∈ again.events.filter (next ≤ ·.offset)) :
    event.offset ∈ (scan.events.filter (start ≤ ·.offset)).map Event.offset := by
  obtain ⟨hevent, hwanted⟩ := List.mem_filter.mp h
  have hoffset : event.offset ∈ scan.events.map Event.offset := hoffsets ▸ List.mem_map_of_mem hevent
  obtain ⟨same, hsame, hequal⟩ := List.mem_map.mp hoffset
  have hstart : start ≤ same.offset := hequal ▸ Std.le_trans hle (of_decide_eq_true hwanted)
  rw [← hequal]
  exact List.mem_map_of_mem (List.mem_filter.mpr ⟨hsame, decide_eq_true hstart⟩)

/-- From a later offset on only offsets are found that were found before. -/
theorem collect_onward (hle : start ≤ next) (later : Instant) {segments : List Segment}
    {found again events : List Event}
    (h : directory.collect now start .toTheEnd found segments = .ok events)
    (hagain : ∀ event ∈ again, event.offset ∈ found.map Event.offset) :
    ∃ rest, directory.collect later next .toTheEnd again segments = .ok rest ∧
      ∀ event ∈ rest, event.offset ∈ events.map Event.offset := by
  induction segments generalizing found again with
  | nil =>
    obtain rfl := Except.ok.inj h
    exact ⟨again, rfl, hagain⟩
  | cons segment segments ih =>
    rw [collect_cons_eq_ok_iff] at h
    simp only [collect_cons_eq_ok_iff]
    by_cases hskip : segments.head?.any (·.start ≤ start) = true
    · rw [if_pos hskip] at h
      simp only [if_pos (skips_onward hle hskip)]
      exact ih h hagain
    rw [if_neg hskip] at h
    obtain ⟨scan, hscan, hrest⟩ := h
    have hbefore : ∀ event ∈ again,
        event.offset ∈ (found ++ scan.events.filter (start ≤ ·.offset)).map Event.offset := by
      intro event hevent
      rw [List.map_append]
      exact List.mem_append_left _ (hagain event hevent)
    by_cases hskipped : segments.head?.any (·.start ≤ next) = true
    · simp only [if_pos hskipped]
      exact ih hrest hbefore
    · obtain ⟨scanned, hscanned, hoffsets⟩ := scan_later hscan later
      have hmore : ∀ event ∈ again ++ scanned.events.filter (next ≤ ·.offset),
          event.offset ∈ (found ++ scan.events.filter (start ≤ ·.offset)).map Event.offset := by
        intro event hevent
        rcases List.mem_append.mp hevent with hevent | hevent
        · exact hbefore event hevent
        · rw [List.map_append]
          exact List.mem_append_right _ (wanted_onward hle hoffsets hevent)
      obtain ⟨rest, hcollect, hread⟩ := ih hrest hmore
      simp only [if_neg hskipped]
      exact ⟨rest, ⟨scanned, hscanned, hcollect⟩, hread⟩

/-- What is read is what the segments gave, in the order of the offsets. -/
theorem exists_of_readEvents {events : List Event}
    (h : directory.readEvents now start .toTheEnd = .ok events) :
    ∃ found, directory.collect now start .toTheEnd [] directory.segments = .ok found ∧
      events = sortOn Event.offset found := by
  unfold readEvents at h
  cases hcollect : directory.collect now start .toTheEnd [] directory.segments with
  | error error =>
    rw [hcollect] at h
    contradiction
  | ok found =>
    rw [hcollect] at h
    exact ⟨found, rfl, (Except.ok.inj h).symm⟩

/-- What is read from an offset on is in order and not before it. -/
theorem readEvents_sound {events : List Event}
    (h : directory.readEvents now start .toTheEnd = .ok events) :
    (events.Pairwise fun event later ↦ event.offset ≤ later.offset) ∧
      ∀ event ∈ events, start ≤ event.offset := by
  obtain ⟨found, hcollect, rfl⟩ := exists_of_readEvents h
  refine ⟨pairwise_sortOn Event.offset found, fun event hevent ↦ ?_⟩
  exact start_le_of_collect hcollect (fun _ hnone ↦ absurd hnone List.not_mem_nil) event
    ((perm_sortOn Event.offset found).mem_iff.mp hevent)

/-- **Reading onward finds nothing new.** A directory that could be read from an offset on can be read
from every later one, at any time, and the offsets that are found then were found before. -/
theorem readEvents_onward (hle : start ≤ next) (later : Instant) {events : List Event}
    (h : directory.readEvents now start .toTheEnd = .ok events) :
    ∃ rest, directory.readEvents later next .toTheEnd = .ok rest ∧
      (∀ event ∈ rest, next ≤ event.offset) ∧
      ∀ event ∈ rest, event.offset ∈ events.map Event.offset := by
  obtain ⟨found, hcollect, rfl⟩ := exists_of_readEvents h
  have hnothing : ∀ event ∈ ([] : List Event), event.offset ∈ ([] : List Event).map Event.offset :=
    fun _ hnone ↦ absurd hnone List.not_mem_nil
  obtain ⟨rest, hrest, hread⟩ := collect_onward hle later hcollect hnothing
  have hagain : directory.readEvents later next .toTheEnd = .ok (sortOn Event.offset rest) := by
    rw [readEvents, hrest]
    rfl
  refine ⟨_, hagain, (readEvents_sound hagain).2, fun event hevent ↦ ?_⟩
  have hperm := (perm_sortOn Event.offset found).map Event.offset
  exact hperm.mem_iff.mpr (hread event ((perm_sortOn Event.offset rest).mem_iff.mp hevent))

end Directory

namespace FileLog

variable {log after : FileLog} {partition : PartitionId} {start next : Offset}
  {visited : List Event}

theorem readFrom_of_directory? {directory : Directory} {events : List Event}
    (hdirectory : log.directory? partition = some directory)
    (h : directory.readEvents log.now start .toTheEnd = .ok events) :
    LogSource.readFrom log partition start = (⟨events, none⟩, log) := by
  change (log.read partition start .toTheEnd noObjection, log) = _
  simp only [read, hdirectory, h, Reading.ofExcept, Reading.visit_noObjection]

theorem readFrom_of_directory?_eq_none (h : log.directory? partition = none) (start : Offset) :
    LogSource.readFrom log partition start = (⟨[], none⟩, log) := by
  change (log.read partition start .toTheEnd noObjection, log) = _
  simp only [read, h]

/-- A read that succeeds leaves the log alone. It has visited what the directory holds, if there is one. -/
theorem exists_of_readFrom (h : LogSource.readFrom log partition start = (⟨visited, none⟩, after)) :
    after = log ∧ (log.directory? partition = none ∧ visited = [] ∨
      ∃ directory, log.directory? partition = some directory ∧
        directory.readEvents log.now start .toTheEnd = .ok visited) := by
  cases hdirectory : log.directory? partition with
  | none =>
    rw [readFrom_of_directory?_eq_none hdirectory] at h
    obtain ⟨hreading, hlog⟩ := Prod.mk.inj h
    exact ⟨hlog.symm, Or.inl ⟨rfl, (congrArg Reading.visited hreading).symm⟩⟩
  | some directory =>
    cases hevents : directory.readEvents log.now start .toTheEnd with
    | error error =>
      change (log.read partition start .toTheEnd noObjection, log) = _ at h
      simp [read, hdirectory, hevents, Reading.ofExcept, Reading.failed] at h
    | ok events =>
      rw [readFrom_of_directory? hdirectory hevents] at h
      obtain ⟨hreading, hlog⟩ := Prod.mk.inj h
      obtain rfl : events = visited := congrArg Reading.visited hreading
      exact ⟨hlog.symm, Or.inr ⟨directory, rfl, hevents⟩⟩

/-- Events are visited in order, from the offset on that was asked for. -/
theorem visited_sound (h : LogSource.readFrom log partition start = (⟨visited, none⟩, after)) :
    (visited.Pairwise fun event later ↦ event.offset ≤ later.offset) ∧
      ∀ event ∈ visited, start ≤ event.offset := by
  obtain ⟨-, ⟨-, rfl⟩ | ⟨directory, -, hevents⟩⟩ := exists_of_readFrom h
  · exact ⟨List.Pairwise.nil, fun _ hnone ↦ absurd hnone List.not_mem_nil⟩
  · exact Directory.readEvents_sound hevents

/-- Behind the last event that was visited there is nothing to visit, at any time. -/
theorem readFrom_onward (h : LogSource.readFrom log partition start = (⟨visited, none⟩, after))
    (hle : start ≤ next) (hbehind : ∀ event ∈ visited, event.offset < next) (later : Instant) :
    LogSource.readFrom { log with now := later } partition next =
      (⟨[], none⟩, { log with now := later }) := by
  obtain ⟨-, ⟨hnone, -⟩ | ⟨directory, hdirectory, hevents⟩⟩ := exists_of_readFrom h
  · have hmissing : ({ log with now := later } : FileLog).directory? partition = none := hnone
    exact readFrom_of_directory?_eq_none hmissing next
  obtain ⟨rest, hrest, hwanted, hread⟩ := Directory.readEvents_onward hle later hevents
  have hempty : rest = [] := by
    refine List.eq_nil_iff_forall_not_mem.mpr fun event hevent ↦ ?_
    obtain ⟨same, hsame, hequal⟩ := List.mem_map.mp (hread event hevent)
    have hlt := hbehind same hsame
    rw [hequal] at hlt
    exact Std.not_le.mpr hlt (hwanted event hevent)
  rw [hempty] at hrest
  exact readFrom_of_directory? hdirectory hrest

end FileLog

end LogSequencing
