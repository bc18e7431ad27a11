import LogSequencing.Log.Writer
import LogSequencing.Proofs.Log.Directory

/-!
# Writers lose nothing

Opening a writer on files whose events are in order leaves all their events to be read, and the writer
then stands at the end of whole entries (`Holds.openIn`). An event that it accepts is read after all
others, whether it goes to the last file, to a new one, or to a new one of the last one's name
(`Holds.append`). Both hold whatever garbage lies between the entries.
-/

set_option autoImplicit false
set_option relaxedAutoImplicit false

namespace LogSequencing

variable {now : Instant}

/-! ### The last offset -/

namespace Writer

variable {start : Offset} {events : List Event}

theorem lastOffset_congr {others : List Event}
    (h : events.map Event.offset = others.map Event.offset) :
    lastOffset start events = lastOffset start others := by
  unfold lastOffset
  rw [h]

/-- The last offset of a file that holds events is the greatest of theirs. -/
theorem lastOffset_eq {last : Offset} (hmem : last ∈ events.map Event.offset)
    (hmax : ∀ event ∈ events, event.offset ≤ last) : lastOffset start events = last := by
  have hlast : (events.map Event.offset).max? = some last := by
    refine List.max?_eq_some_iff.mpr ⟨hmem, ?_⟩
    intro offset hoffset
    obtain ⟨event, hevent, rfl⟩ := List.mem_map.mp hoffset
    exact hmax event hevent
  unfold lastOffset
  rw [hlast]

theorem le_lastOffset {event : Event} (h : event ∈ events) :
    event.offset ≤ lastOffset start events := by
  unfold lastOffset
  cases hlast : (events.map Event.offset).max? with
  | none =>
    rw [List.max?_eq_none_iff, List.map_eq_nil_iff] at hlast
    rw [hlast] at h
    contradiction
  | some last => exact (List.max?_eq_some_iff.mp hlast).2 _ (List.mem_map_of_mem h)

theorem toNat_sub_one (h : ¬ start.isNull = true) :
    (start.val - 1).toNat + 1 = start.val.toNat := by
  have hne : start.val.toNat ≠ 0 := fun hzero ↦
    h (beq_iff_eq.mpr (Serial.eq_of_toNat_eq hzero))
  have hone : (1 : UInt64) ≤ start.val := UInt64.le_iff_toNat_le.mpr (Nat.one_le_iff_ne_zero.mpr hne)
  rw [UInt64.toNat_sub_of_le _ _ hone, UInt64.toNat_one]
  omega

/-- What exceeds the last offset of a file belongs behind its start. -/
theorem start_le_of_lastOffset_lt {offset : Offset}
    (hevents : ∀ event ∈ events, start ≤ event.offset) (h : lastOffset start events < offset) :
    start ≤ offset := by
  cases events with
  | nil =>
    change (if start.isNull then Serial.null else ⟨start.val - 1⟩) < offset at h
    change start.val ≤ offset.val
    rw [UInt64.le_iff_toNat_le]
    by_cases hnull : start.isNull = true
    · rw [beq_iff_eq.mp hnull]
      exact Nat.zero_le _
    · rw [if_neg hnull] at h
      have hlt : (start.val - 1).toNat < offset.val.toNat := UInt64.lt_iff_toNat_lt.mp h
      have hone := toNat_sub_one hnull
      omega
  | cons event events =>
    have hlast : event.offset ≤ lastOffset start (event :: events) :=
      le_lastOffset List.mem_cons_self
    exact Std.le_trans (hevents event List.mem_cons_self) (Std.le_trans hlast (Std.le_of_lt h))

/-- An offset exceeds the last one of a file if it belongs behind its start and all of its events. -/
theorem lastOffset_lt_iff {offset : Offset} (hevents : ∀ event ∈ events, start ≤ event.offset) :
    lastOffset start events < offset ↔
      .null < offset ∧ start ≤ offset ∧ ∀ event ∈ events, event.offset < offset := by
  constructor
  · intro h
    have hnull : (.null : Offset) ≤ lastOffset start events :=
      UInt64.le_iff_toNat_le.mpr (Nat.zero_le _)
    exact ⟨Std.lt_of_le_of_lt hnull h, start_le_of_lastOffset_lt hevents h,
      fun event hevent ↦ Std.lt_of_le_of_lt (le_lastOffset hevent) h⟩
  · rintro ⟨hnull, hstart, hall⟩
    unfold lastOffset
    split
    case h_1 last hlast =>
      obtain ⟨event, hevent, rfl⟩ := List.mem_map.mp (List.max?_eq_some_iff.mp hlast).1
      exact hall event hevent
    case h_2 =>
      split_ifs with hzero
      · exact hnull
      · have hone := toNat_sub_one hzero
        have hle : start.val.toNat ≤ offset.val.toNat := UInt64.le_iff_toNat_le.mp hstart
        change start.val - 1 < offset.val
        rw [UInt64.lt_iff_toNat_lt]
        omega

theorem lastOffset_append_singleton {event : Event}
    (h : ∀ other ∈ events, other.offset < event.offset) :
    lastOffset start (events ++ [event]) = event.offset := by
  refine lastOffset_eq (by simp) ?_
  intro other hother
  rcases List.mem_append.mp hother with hother | hother
  · exact Std.le_of_lt (h other hother)
  · rw [List.mem_singleton.mp hother]
    exact Std.le_refl _

end Writer

/-- The offset that an event must exceed to follow those of the files. -/
def lastOffsetOf (now : Instant) (files : List LogFile) : Offset :=
  match files.getLast? with
  | none => .null
  | some file => Writer.lastOffset file.start (file.events now)

@[simp] theorem lastOffsetOf_append_singleton (front : List LogFile) (file : LogFile) :
    lastOffsetOf now (front ++ [file]) = Writer.lastOffset file.start (file.events now) := by
  rw [lastOffsetOf, List.getLast?_concat]

@[simp] theorem eventsOf_append_singleton (front : List LogFile) (file : LogFile) :
    eventsOf now (front ++ [file]) = eventsOf now front ++ file.events now := by
  simp [eventsOf]

/-- A writer stands at the end of a file. The file is whole entries, so that a new one is read after
them, whatever can be read of them. -/
structure Writer.EndsAt (writer : Writer) (now : Instant) (file : LogFile) : Prop where
  segment_eq : writer.segment = file.segment
  whole : Scan.Whole now file.octets (file.events now)

/-- A writer stands at the end of the files that a directory holds, and the events in them are in
order. -/
structure Writer.Follows (writer : Writer) (now : Instant) (directory : Directory)
    (files : List LogFile) : Prop where
  holds : directory.Holds files
  ordered : Ordered now files
  endsAt : ∃ front file, files = front ++ [file] ∧ writer.EndsAt now file
  last_eq : writer.last = lastOffsetOf now files

/-! ### Opening -/

/-- What a writer is opened with does not depend on when it is opened. -/
theorem Writer.openAfter_eq (directory : Directory) (now later : Instant) (segment : Segment)
    (maxSegmentSize : Nat) :
    openAfter directory later segment maxSegmentSize =
      openAfter directory now segment maxSegmentSize := by
  unfold openAfter
  cases directory.fileOctets segment.name with
  | error => simp only [bind, Except.bind]
  | ok octets =>
    have hscans := Scan.scan_offsets later now octets
    simp only [bind, Except.bind]
    generalize Scan.ofOctets later octets = scan at hscans ⊢
    generalize Scan.ofOctets now octets = other at hscans ⊢
    rw [hscans.1, lastOffset_congr hscans.2]

theorem Writer.openIn_eq (directory? : Option Directory) (now later : Instant) (maxSegmentSize : Nat) :
    openIn directory? later maxSegmentSize = openIn directory? now maxSegmentSize := by
  simp only [openIn, openAfter_eq _ now later]

namespace Directory

variable {directory : Directory} {front files : List LogFile} {file : LogFile}

/-- A new file can be created under the name of a segment. -/
theorem IsCanonical.createFile (h : directory.IsCanonical) (start : Offset) :
    Writer.createFile directory (Segment.fileName start) =
      .ok (directory.insert (Segment.fileName start) (.file [])) := by
  unfold Writer.createFile
  split
  · rename_i hnode
    obtain ⟨-, octets, hfile⟩ := h _ _ _ hnode (Segment.ofFileName?_fileName start)
    contradiction
  · rfl

theorem Holds.openFresh (h : directory.Holds []) (maxSegmentSize : Nat) :
    ∃ writer after, Writer.openFresh directory maxSegmentSize = .ok (writer, after) ∧
      after.Holds [⟨.first, []⟩] ∧ writer.EndsAt now ⟨.first, []⟩ ∧ writer.last = .null := by
  let first : LogFile := ⟨.first, []⟩
  have hholds := h.insert_next first fun other hother ↦ absurd hother List.not_mem_nil
  refine ⟨⟨first.segment, .null, maxSegmentSize⟩,
    directory.insert (Segment.fileName first.start) (.file first.octets), ?_, hholds,
    ⟨rfl, Scan.Whole.nil⟩, rfl⟩
  unfold Writer.openFresh
  simp only [h.canonical.createFile]
  rfl

theorem Holds.openAfter (h : directory.Holds (front ++ [file])) (now : Instant)
    (maxSegmentSize : Nat) :
    ∃ writer after octets,
      Writer.openAfter directory now file.segment maxSegmentSize = .ok (writer, after) ∧
      Directory.Holds after (front ++ [⟨file.start, octets⟩]) ∧
      writer.EndsAt now ⟨file.start, octets⟩ ∧
      LogFile.events now ⟨file.start, octets⟩ = file.events now ∧
      writer.last = Writer.lastOffset file.start (file.events now) := by
  let readable := (Scan.ofOctets now file.octets).readable
  have hwhole : Scan.Whole now (file.octets.take readable) (file.events now) :=
    Scan.whole_readable file.octets
  have hevents : LogFile.events now ⟨file.start, file.octets.take readable⟩ = file.events now :=
    hwhole.events_eq
  have hlength : (file.octets.take readable).length = readable := by
    rw [List.length_take, Nat.min_eq_left (Scan.readable_le file.octets)]
  have hcontents := h.contents_eq (List.mem_append_right front List.mem_cons_self)
  let after : Directory := if readable < file.octets.length then
      directory.insert (Segment.fileName file.start) (.file (file.octets.take readable))
    else directory
  have hafter : after.Holds (front ++ [⟨file.start, file.octets.take readable⟩]) := by
    by_cases htorn : readable < file.octets.length
    · rw [show after = _ from if_pos htorn]
      exact h.insert_last _
    · -- Nothing is cut off, and the file holds what is readable already.
      rw [show after = _ from if_neg htorn, List.take_of_length_le (Nat.le_of_not_lt htorn)]
      exact h
  refine ⟨⟨⟨Segment.fileName file.start, file.start, readable⟩,
    Writer.lastOffset file.start (file.events now), maxSegmentSize⟩, after, _, ?_, hafter,
    ⟨?_, hevents ▸ hwhole⟩, hevents, rfl⟩
  · unfold Writer.openAfter
    rw [LogFile.segment, hcontents]
    rfl
  · rw [LogFile.segment, hlength]

/-- A writer can be opened, and leaves all events to be read. -/
theorem Holds.openIn {directory? : Option Directory} (h : (directory?.getD ∅).Holds files)
    (hordered : Ordered now files) (maxSegmentSize : Nat) :
    ∃ writer after written, Writer.openIn directory? now maxSegmentSize = .ok (writer, after) ∧
      writer.Follows now after written ∧ eventsOf now written = eventsOf now files ∧
      lastOffsetOf now written = lastOffsetOf now files := by
  unfold Writer.openIn
  rcases List.eq_nil_or_concat files with rfl | ⟨front, file, rfl⟩
  · obtain ⟨writer, after, hopen, hholds, hends, hlast⟩ := h.openFresh maxSegmentSize
    have hnothing : LogFile.events now ⟨.first, []⟩ = [] := rfl
    have hfirst : lastOffsetOf now ([] ++ [⟨.first, []⟩]) = .null := by
      rw [lastOffsetOf_append_singleton, hnothing]
      decide
    have hwritten : Ordered now ([] ++ [⟨.first, []⟩]) :=
      hordered.append_empty hnothing fun _ hevent ↦ absurd hevent List.not_mem_nil
    refine ⟨writer, after, [] ++ [⟨.first, []⟩], ?_, ⟨hholds, hwritten, ⟨[], _, rfl, hends⟩,
      hlast.trans hfirst.symm⟩, ?_, hfirst⟩
    · simp only [h.segments_eq, List.map_nil, List.getLast?_nil, hopen]
    · rw [eventsOf_append_singleton, hnothing, List.append_nil]
  · rw [List.concat_eq_append] at h hordered ⊢
    obtain ⟨writer, after, octets, hopen, hholds, hends, hevents, hlast⟩ :=
      h.openAfter now maxSegmentSize
    have hlastOf : lastOffsetOf now (front ++ [⟨file.start, octets⟩]) =
        lastOffsetOf now (front ++ [file]) := by
      rw [lastOffsetOf_append_singleton, lastOffsetOf_append_singleton, hevents]
    have hwritten : Ordered now (front ++ [⟨file.start, octets⟩]) := by
      rw [ordered_append_singleton, hevents]
      exact ordered_append_singleton.mp hordered
    refine ⟨writer, after, front ++ [⟨file.start, octets⟩], ?_, ⟨hholds, hwritten,
      ⟨front, _, rfl, hends⟩, ?_⟩, ?_, hlastOf⟩
    · simp only [h.segments_eq, List.map_append, List.map_cons, List.map_nil, List.getLast?_concat,
        hopen]
    · rw [hlast, hlastOf, lastOffsetOf_append_singleton]
    · rw [eventsOf_append_singleton, eventsOf_append_singleton, hevents]

/-! ### Appending -/

theorem Holds.extendFile (h : directory.Holds (front ++ [file])) {writer : Writer}
    (hends : writer.EndsAt now file) (octets : Octets) :
    writer.extendFile directory octets =
      directory.insert (Segment.fileName file.start) (.file (file.octets ++ octets)) := by
  have hfile := (h.mem_iff file).mp (List.mem_append_right front List.mem_cons_self)
  unfold Writer.extendFile
  rw [hends.segment_eq]
  simp only [LogFile.segment, hfile]

/-- An entry that is written behind all events is read after them. -/
theorem Holds.writeEntry (h : directory.Holds (front ++ [file])) (hordered : Ordered now (front ++ [file]))
    {writer : Writer} (hends : writer.EndsAt now file) {event : Event} {entry : Octets}
    (hentry : Scan.Whole now entry [event.kept now]) (hstart : file.start ≤ event.offset)
    (hlater : ∀ other ∈ eventsOf now (front ++ [file]), other.offset < event.offset) :
    ∃ extended after written,
      writer.writeEntry directory event.offset entry none = (.ok (), extended, after) ∧
      extended.Follows now after written ∧
      eventsOf now written = eventsOf now (front ++ [file]) ++ [event.kept now] ∧
      lastOffsetOf now written = event.offset := by
  let longer : LogFile := ⟨file.start, file.octets ++ entry⟩
  have hwhole : Scan.Whole now longer.octets (file.events now ++ [event.kept now]) :=
    hends.whole.append hentry
  have hevents : longer.events now = file.events now ++ [event.kept now] := hwhole.events_eq
  have hbefore : ∀ other ∈ file.events now, other.offset < event.offset := by
    intro other hother
    rw [eventsOf_append_singleton] at hlater
    exact hlater other (List.mem_append_right _ hother)
  have hlast : lastOffsetOf now (front ++ [longer]) = event.offset := by
    rw [lastOffsetOf_append_singleton, hevents]
    exact Writer.lastOffset_append_singleton hbefore
  have hwritten : Ordered now (front ++ [longer]) :=
    hordered.append_event rfl hevents hstart hbefore
  refine ⟨{ writer with
      segment := { writer.segment with size := writer.segment.size + entry.length }
      last := event.offset }, writer.extendFile directory entry, front ++ [longer], rfl,
    ⟨?_, hwritten, ⟨front, longer, rfl, ?_, hevents ▸ hwhole⟩, hlast.symm⟩, ?_, hlast⟩
  · rw [h.extendFile hends]
    exact h.insert_last _
  · rw [hends.segment_eq]
    simp only [LogFile.segment, longer, List.length_append]
  · rw [eventsOf_append_singleton, eventsOf_append_singleton, hevents, List.append_assoc]

end Directory

namespace Writer

variable {directory : Directory} {front files : List LogFile} {file : LogFile} {writer : Writer}

/-- What exceeds the last offset of files belongs behind all of their events. -/
theorem lt_of_lastOffsetOf_lt (h : Ordered now (front ++ [file])) {offset : Offset}
    (hlt : lastOffsetOf now (front ++ [file]) < offset) :
    file.start ≤ offset ∧ ∀ event ∈ eventsOf now (front ++ [file]), event.offset < offset := by
  obtain ⟨-, -, hinside, hfront⟩ := ordered_append_singleton.mp h
  rw [lastOffsetOf_append_singleton] at hlt
  have hstart := start_le_of_lastOffset_lt hinside hlt
  refine ⟨hstart, ?_⟩
  intro event hevent
  rw [eventsOf_append_singleton] at hevent
  rcases List.mem_append.mp hevent with hevent | hevent
  · exact Std.lt_of_lt_of_le (hfront event hevent) hstart
  · exact Std.lt_of_le_of_lt (le_lastOffset hevent) hlt

/-- An offset exceeds the last one of files if it belongs behind all of them and all their events. -/
theorem lastOffsetOf_lt_iff {offset : Offset} (h : Ordered now files)
    (hascending : files.Pairwise fun file later ↦ file.start < later.start) :
    lastOffsetOf now files < offset ↔ .null < offset ∧ (∀ file ∈ files, file.start ≤ offset) ∧
      ∀ event ∈ eventsOf now files, event.offset < offset := by
  rcases List.eq_nil_or_concat files with rfl | ⟨front, file, rfl⟩
  · have hnone : lastOffsetOf now [] = .null := rfl
    rw [hnone]
    exact ⟨fun hlt ↦ ⟨hlt, nofun, nofun⟩, And.left⟩
  rw [List.concat_eq_append] at h hascending ⊢
  have hinside := (ordered_append_singleton.mp h).2.2.1
  constructor
  · intro hlt
    obtain ⟨hstart, hevents⟩ := lt_of_lastOffsetOf_lt h hlt
    rw [lastOffsetOf_append_singleton] at hlt
    refine ⟨((lastOffset_lt_iff hinside).mp hlt).1, ?_, hevents⟩
    intro other hother
    rcases List.mem_append.mp hother with hfront | hfile
    · have hbefore := (List.pairwise_append.mp hascending).2.2 other hfront file List.mem_cons_self
      exact Std.le_trans (Std.le_of_lt hbefore) hstart
    · rwa [List.mem_singleton.mp hfile]
  · rintro ⟨hnull, hstarts, hevents⟩
    rw [lastOffsetOf_append_singleton, lastOffset_lt_iff hinside]
    refine ⟨hnull, hstarts file (List.mem_append_right _ List.mem_cons_self), ?_⟩
    intro event hevent
    rw [eventsOf_append_singleton] at hevents
    exact hevents event (List.mem_append_right _ hevent)

/-- A new segment is empty. It takes the place of the last one where it gets the same name, which
happens only if nothing of that one can be read. -/
theorem Follows.rotate (h : writer.Follows now directory files) {offset : Offset}
    (hlt : writer.last < offset) :
    ∃ rotated after front', writer.rotate directory offset none = .ok (rotated, after) ∧
      Directory.Holds after (front' ++ [⟨offset, []⟩]) ∧ Ordered now (front' ++ [⟨offset, []⟩]) ∧
      rotated.EndsAt now ⟨offset, []⟩ ∧
      eventsOf now (front' ++ [⟨offset, []⟩]) = eventsOf now files := by
  have hnothing : LogFile.events now ⟨offset, []⟩ = [] := rfl
  have hrotate : writer.rotate directory offset none = .ok
      ({ writer with segment := LogFile.segment ⟨offset, []⟩ },
        directory.insert (Segment.fileName offset) (.file [])) := by
    simp only [Writer.rotate, h.holds.canonical.createFile]
    rfl
  have hends : Writer.EndsAt { writer with segment := LogFile.segment ⟨offset, []⟩ } now
      ⟨offset, []⟩ := ⟨rfl, Scan.Whole.nil⟩
  obtain ⟨front, file, rfl, -⟩ := h.endsAt
  rw [h.last_eq] at hlt
  obtain ⟨hstart, hbefore⟩ := lt_of_lastOffsetOf_lt h.ordered hlt
  obtain ⟨hfront, -, hinside, hfrontBefore⟩ := ordered_append_singleton.mp h.ordered
  rw [eventsOf_append_singleton] at hbefore
  by_cases hsame : file.start = offset
  · have hempty : file.events now = [] := by
      refine List.eq_nil_iff_forall_not_mem.mpr fun event hevent ↦ ?_
      have hevent' := hbefore event (List.mem_append_right _ hevent)
      exact Std.not_le.mpr hevent' (hsame ▸ hinside event hevent)
    refine ⟨_, _, front, hrotate, hsame ▸ h.holds.insert_last [],
      hfront.append_empty hnothing (hsame ▸ hfrontBefore), hends, ?_⟩
    rw [eventsOf_append_singleton, eventsOf_append_singleton, hnothing, hempty]
  · have hlater : file.start < offset := Std.lt_of_le_of_ne hstart hsame
    refine ⟨_, _, front ++ [file], hrotate, h.holds.insert_next ⟨offset, []⟩ ?_,
      h.ordered.append_empty hnothing ?_, hends, ?_⟩
    · intro other hother
      rcases List.mem_append.mp hother with hother | hother
      · have hascending := (List.pairwise_append.mp h.holds.ascending).2.2
        exact Std.lt_trans (hascending other hother file List.mem_cons_self) hlater
      · rw [List.mem_singleton.mp hother]
        exact hlater
    · rwa [eventsOf_append_singleton]
    · rw [eventsOf_append_singleton, hnothing, List.append_nil]

theorem append_of_le {event : Event} (h : event.offset ≤ writer.last)
    (fault? : Option AppendFault) :
    writer.append directory event fault? =
      (.error (.offsetRegression event.offset writer.last), writer, directory) := if_pos h

theorem append_of_encode_eq_error {event : Event} {error : LogError} (h : writer.last < event.offset)
    (hencode : Entry.encode event = .error error) (fault? : Option AppendFault) :
    writer.append directory event fault? = (.error error, writer, directory) := by
  unfold append
  rw [if_neg (Std.not_le.mpr h), hencode]

/-- An event that is accepted is read after all others. -/
theorem Follows.append (h : writer.Follows now directory files) {event : Event} {entry : Octets}
    (htime : event.time.IsValid) (hcounted : event.IsCounted)
    (hencode : Entry.encode event = .ok entry) (hlt : writer.last < event.offset) :
    ∃ extended after written,
      writer.append directory event none = (.ok (), extended, after) ∧
      extended.Follows now after written ∧
      eventsOf now written = eventsOf now files ++ [event.kept now] ∧
      lastOffsetOf now written = event.offset := by
  have hentry : Scan.Whole now entry [event.kept now] := Scan.whole_encode htime hcounted hencode
  unfold Writer.append
  rw [if_neg (Std.not_le.mpr hlt), hencode]
  by_cases hrotate : writer.mustRotate entry.length = true
  · obtain ⟨rotated, after, front, hrotated, hholds, hordered, hends, hevents⟩ := h.rotate hlt
    have hbefore : ∀ other ∈ eventsOf now (front ++ [⟨event.offset, []⟩]),
        other.offset < event.offset := by
      rw [hevents]
      obtain ⟨front, file, rfl, -⟩ := h.endsAt
      exact (lt_of_lastOffsetOf_lt h.ordered (h.last_eq ▸ hlt)).2
    simp only [hrotate, if_true, hrotated]
    rw [← hevents]
    exact hholds.writeEntry hordered hends hentry (Std.le_refl _) hbefore
  · obtain ⟨front, file, rfl, hends⟩ := h.endsAt
    obtain ⟨hstart, hbefore⟩ := lt_of_lastOffsetOf_lt h.ordered (h.last_eq ▸ hlt)
    simp only [hrotate]
    exact h.holds.writeEntry h.ordered hends hentry hstart hbefore

end Writer

end LogSequencing
