import LogSequencing.Proofs.Log.Writer

/-!
# Appends that fail

A writer goes on after an append that failed. While one writer is open on a log that was empty,
appends meet faults, and other directories may get into the way of new segments (`Attempt`). Three
things can go wrong. An entry that was written but not made durable is refused and yet read. A
directory in the way of a segment makes every read fail. And a write that fails halfway leaves part of
an entry in the file, or a new segment that begins behind the next event.

As long as nothing is written behind what such a write left (`Recorder.undisturbed`), the first two are
all that can go wrong (`Recorder.reads_acknowledged_iff`): what was written is kept, one attempt after
another (`Recorder.Keeps.run`), until a directory is in the way, which it then stays
(`Recorder.Blocked.run`). What is written behind it may be lost (`Recorder.leftover_swallows`,
`Recorder.segment_emptied`).
-/

set_option autoImplicit false
set_option relaxedAutoImplicit false

namespace LogSequencing

/-- What is tried in the directory of an open writer. -/
inductive Attempt where
  /-- The writer appends an event and may meet a fault. -/
  | append (event : Event) (fault? : Option AppendFault)
  /-- Somebody makes a directory of the name of a segment, unless the name is taken. -/
  | obstruct (start : Offset)
deriving Repr

namespace Attempt

/-- A write that fails stores only a part of an entry, and no segment begins at null. -/
def IsValid : Attempt → Prop
  | append event fault? => event.IsStorable ∧
    ∀ stored entry, fault? = some (.write stored) → Entry.encode event = .ok entry →
      stored < entry.length
  | obstruct start => start ≠ .null

end Attempt

/-- An attempt and how it ended. -/
structure Trial where
  attempt : Attempt
  result : Except LogError Unit

namespace Trial

/-- The event that was acknowledged. -/
def acknowledged? (trial : Trial) : Option Event :=
  match trial.attempt, trial.result with
  | .append event _, .ok () => some event
  | _, _ => none

/-- The event whose entry was written but not made durable, for which it was refused. -/
def unconfirmed? (trial : Trial) : Option Event :=
  match trial.attempt, trial.result with
  | .append event (some .sync), .error error => if error = Writer.ioFault then some event else none
  | _, _ => none

/-- The event whose entry was written. -/
def written? (trial : Trial) : Option Event := trial.acknowledged?.or trial.unconfirmed?

theorem acknowledged?_eq_none {trial : Trial} (h : trial.unconfirmed? ≠ none) :
    trial.acknowledged? = none := by
  unfold unconfirmed? at h
  unfold acknowledged?
  split at h
  · rename_i hattempt hresult
    rw [hattempt, hresult]
  · exact absurd rfl h

theorem written?_eq {trial : Trial} (h : trial.unconfirmed? = none) :
    trial.written? = trial.acknowledged? := by
  rw [written?, h, Option.or_none]

/-- A trial whose event is unconfirmed writes an event more than it acknowledges. -/
theorem length_filterMap_written? (trials : List Trial) :
    (trials.filterMap written?).length =
      (trials.filterMap acknowledged?).length + (trials.filterMap unconfirmed?).length := by
  induction trials with
  | nil => rfl
  | cons trial trials ih =>
    cases hunconfirmed : trial.unconfirmed? with
    | none =>
      rw [List.filterMap_cons_none hunconfirmed, List.filterMap_cons, List.filterMap_cons,
        written?_eq hunconfirmed]
      cases trial.acknowledged? with
      | none => exact ih
      | some event =>
        simp only [List.length_cons, ih]
        omega
    | some event =>
      have hacknowledged := acknowledged?_eq_none (hunconfirmed ▸ Option.some_ne_none event)
      have hwritten : trial.written? = some event := by
        rw [written?, hacknowledged, hunconfirmed, Option.none_or]
      rw [List.filterMap_cons_some hwritten, List.filterMap_cons_some hunconfirmed,
        List.filterMap_cons_none hacknowledged, List.length_cons, List.length_cons, ih]
      omega

/-- The events written are those acknowledged if none is left unconfirmed. -/
theorem map_written?_eq_iff {trials : List Trial} (f : Event → Event) :
    (trials.filterMap written?).map f = (trials.filterMap acknowledged?).map f ↔
      ∀ trial ∈ trials, trial.unconfirmed? = none := by
  rw [← List.filterMap_eq_nil_iff]
  constructor
  · intro heq
    have hlength := congrArg List.length heq
    rw [List.length_map, List.length_map, length_filterMap_written?] at hlength
    exact List.length_eq_zero_iff.mp (by omega)
  · intro hnone
    rw [List.filterMap_congr fun trial htrial ↦
      written?_eq (List.filterMap_eq_nil_iff.mp hnone trial htrial)]

end Trial

/-- The file with octets added to its end. -/
def LogFile.extended (file : LogFile) (octets : Octets) : LogFile :=
  ⟨file.start, file.octets ++ octets⟩

@[simp] theorem LogFile.extended_nil (file : LogFile) : file.extended [] = file := by
  rw [extended, List.append_nil]

@[simp] theorem LogFile.start_extended (file : LogFile) (octets : Octets) :
    (file.extended octets).start = file.start := rfl

/-- A writer and the directory that it writes to. -/
structure Recorder where
  writer : Writer
  directory : Directory

namespace Recorder

/-- The directory that somebody else makes. -/
def obstruct (recorder : Recorder) (start : Offset) : Recorder :=
  match recorder.directory[Segment.fileName start]? with
  | some _ => recorder
  | none =>
    { recorder with directory := recorder.directory.insert (Segment.fileName start) .directory }

def act (recorder : Recorder) : Attempt → Except LogError Unit × Recorder
  | .append event fault? =>
    let (result, writer, directory) := recorder.writer.append recorder.directory event fault?
    (result, ⟨writer, directory⟩)
  | .obstruct start => (.ok (), recorder.obstruct start)

def run : Recorder → List Attempt → List Trial × Recorder
  | recorder, [] => ([], recorder)
  | recorder, attempt :: attempts =>
    let (result, recorder) := recorder.act attempt
    let (trials, recorder) := run recorder attempts
    (⟨attempt, result⟩ :: trials, recorder)

/-- What is written for an event goes to a new segment, or to one that begins at or before the event
and holds nothing but what the writer counts. -/
def admits (recorder : Recorder) (event : Event) : Bool :=
  match Entry.encode event with
  | .error _ => true
  | .ok entry =>
    decide (event.offset ≤ recorder.writer.last) ||
    recorder.writer.mustRotate entry.length ||
    (decide (recorder.writer.segment.start ≤ event.offset) &&
      recorder.directory[recorder.writer.segment.name]?.any
        (·.size == recorder.writer.segment.size))

/-- Nothing is written behind what a failed write left. -/
def undisturbed : Recorder → List Attempt → Bool
  | _, [] => true
  | recorder, attempt :: attempts =>
    (match attempt with
      | .append event _ => recorder.admits event
      | .obstruct _ => true) &&
    undisturbed (recorder.act attempt).2 attempts

/-! ### What a recorder keeps -/

/-- The directory of a recorder holds files. Of the last one the writer counts all but what a failed
write left, and the events in them are in order. -/
structure Stands (recorder : Recorder) (now : Instant) (front : List LogFile) (counted : LogFile)
    (torn : Octets) : Prop where
  holds : recorder.directory.Holds (front ++ [counted.extended torn])
  endsAt : recorder.writer.EndsAt now counted
  torn_eq : Scan.frame? torn = none
  ordered : Ordered now (front ++ [counted])
  le_last : ∀ event ∈ eventsOf now (front ++ [counted]), event.offset ≤ recorder.writer.last
  start_le_last : counted.octets ≠ [] → counted.start ≤ recorder.writer.last
  first_le : ∀ start ∈ (front ++ [counted]).map LogFile.start, .first ≤ start

/-- What was written reads as these events. -/
def Keeps (recorder : Recorder) (now : Instant) (events : List Event) : Prop :=
  ∃ front counted torn, recorder.Stands now front counted torn ∧
    eventsOf now (front ++ [counted]) = events

variable {recorder : Recorder} {now : Instant} {front : List LogFile} {counted : LogFile}
  {torn entry : Octets} {event : Event} {events : List Event}

theorem Stands.events_eq (h : recorder.Stands now front counted torn) :
    (counted.extended torn).events now = counted.events now :=
  h.endsAt.whole.events_append h.torn_eq

theorem Stands.eventsOf_eq (h : recorder.Stands now front counted torn) :
    eventsOf now (front ++ [counted.extended torn]) =
      eventsOf now (front ++ [counted]) := by
  rw [eventsOf_append_singleton, eventsOf_append_singleton, h.events_eq]

theorem Stands.ordered_files (h : recorder.Stands now front counted torn) :
    Ordered now (front ++ [counted.extended torn]) := by
  rw [ordered_append_singleton, h.events_eq]
  exact ordered_append_singleton.mp h.ordered

/-- What a failed write left is not read. -/
theorem Keeps.readEvents_eq (h : recorder.Keeps now events) (start : Offset) (limit : ReadLimit) :
    recorder.directory.readEvents now start limit =
      .ok (limit.take (events.filter (start ≤ ·.offset))) := by
  obtain ⟨front, counted, torn, hstands, rfl⟩ := h
  rw [← hstands.eventsOf_eq]
  exact hstands.holds.readEvents_eq hstands.ordered_files start limit

/-! ### Writing -/

/-- A part of an entry that is left behind the file is not counted. -/
theorem Stands.leave (h : recorder.Stands now front counted []) (htorn : Scan.frame? torn = none) :
    Stands ⟨recorder.writer, recorder.writer.extendFile recorder.directory torn⟩ now front counted
      torn := by
  have hholds := h.holds
  rw [LogFile.extended_nil] at hholds
  refine { h with holds := ?_, torn_eq := htorn }
  rw [hholds.extendFile h.endsAt]
  exact hholds.insert_last _

/-- An entry that is written behind the file is counted, and its event read after all others. -/
theorem Stands.write (h : recorder.Stands now front counted [])
    (hentry : Scan.Whole now entry [event.kept now]) (hstart : counted.start ≤ event.offset)
    (hlast : recorder.writer.last < event.offset) :
    Keeps ⟨{ recorder.writer with
        segment := { recorder.writer.segment with
          size := recorder.writer.segment.size + entry.length }
        last := event.offset }, recorder.writer.extendFile recorder.directory entry⟩ now
      (eventsOf now (front ++ [counted]) ++ [event.kept now]) := by
  let longer := counted.extended entry
  have hwhole : Scan.Whole now longer.octets (counted.events now ++ [event.kept now]) :=
    h.endsAt.whole.append hentry
  have hevents : longer.events now = counted.events now ++ [event.kept now] := hwhole.events_eq
  have heventsOf : eventsOf now (front ++ [longer]) =
      eventsOf now (front ++ [counted]) ++ [event.kept now] := by
    rw [eventsOf_append_singleton, eventsOf_append_singleton, hevents, List.append_assoc]
  have hbefore : ∀ other ∈ counted.events now, other.offset < event.offset := by
    intro other hother
    have hle := h.le_last other <| by
      rw [eventsOf_append_singleton]
      exact List.mem_append_right _ hother
    exact Std.lt_of_le_of_lt hle hlast
  have hstarts : (front ++ [longer]).map LogFile.start =
      (front ++ [counted]).map LogFile.start := by
    simp only [List.map_append, List.map_cons, List.map_nil, longer, LogFile.start_extended]
  have hholds := h.holds
  rw [LogFile.extended_nil] at hholds
  refine ⟨front, longer, [], ⟨?_, ⟨?_, hevents ▸ hwhole⟩, h.torn_eq,
    h.ordered.append_event rfl hevents hstart hbefore, ?_, fun _ ↦ hstart,
    hstarts ▸ h.first_le⟩, heventsOf⟩
  · rw [hholds.extendFile h.endsAt, LogFile.extended_nil]
    exact hholds.insert_last _
  · rw [h.endsAt.segment_eq]
    simp only [LogFile.segment, longer, LogFile.extended, List.length_append]
  · intro other hother
    rw [heventsOf] at hother
    rcases List.mem_append.mp hother with hother | hother
    · exact Std.le_of_lt (Std.lt_of_le_of_lt (h.le_last other hother) hlast)
    · rw [List.mem_singleton.mp hother]
      exact Std.le_refl _

/-- What a trial adds to the events that are kept. -/
def addition (now : Instant) (trial : Trial) : List Event :=
  (trial.written?.map (Event.kept now)).toList

/-- What an append came to: its event is added if its entry was written, whatever the answer is. -/
def Accounted (now : Instant) (events : List Event) (event : Event) (fault? : Option AppendFault) :
    Except LogError Unit × Writer × Directory → Prop
  | (result, writer, directory) => Keeps ⟨writer, directory⟩ now
    (events ++ addition now ⟨.append event fault?, result⟩)

theorem Stands.writeEntry (h : recorder.Stands now front counted []) (hevent : event.IsStorable)
    (hencode : Entry.encode event = .ok entry) (hstart : counted.start ≤ event.offset)
    (hlast : recorder.writer.last < event.offset) {fault? : Option AppendFault}
    (hpart : ∀ stored, fault? = some (.write stored) → stored < entry.length) :
    Accounted now (eventsOf now (front ++ [counted])) event fault?
      (recorder.writer.writeEntry recorder.directory event.offset entry fault?) := by
  have hwritten := h.write (Scan.whole_encode hevent.1 hevent.2 hencode) hstart hlast
  cases fault? with
  | none => exact hwritten
  | some fault =>
    cases fault with
    | rotationSync | rotationCreate | sync => exact hwritten
    | write stored =>
      have htorn := Scan.frame?_take_eq_none hevent.2 hencode (hpart stored rfl)
      exact ⟨front, counted, _, h.leave htorn, (List.append_nil _).symm⟩

/-! ### New segments -/

/-- A new segment begins behind all others, which hold an event at least. -/
theorem Stands.rotate (h : recorder.Stands now front counted torn) {offset : Offset}
    (hlast : recorder.writer.last < offset) (hcounted : counted.octets ≠ []) :
    ∃ rotated : Recorder, recorder.writer.rotate recorder.directory offset none =
        .ok (rotated.writer, rotated.directory) ∧
      rotated.writer.last = recorder.writer.last ∧
      rotated.Stands now (front ++ [counted.extended torn]) ⟨offset, []⟩ [] ∧
      eventsOf now (front ++ [counted.extended torn] ++ [⟨offset, []⟩]) =
        eventsOf now (front ++ [counted]) := by
  have hnothing : LogFile.events now ⟨offset, []⟩ = [] := rfl
  have hbefore : ∀ event ∈ eventsOf now (front ++ [counted]), event.offset < offset :=
    fun event hevent ↦ Std.lt_of_le_of_lt (h.le_last event hevent) hlast
  have hstart : counted.start < offset := Std.lt_of_le_of_lt (h.start_le_last hcounted) hlast
  have hevents : eventsOf now
      (front ++ [counted.extended torn] ++ [⟨offset, []⟩]) =
        eventsOf now (front ++ [counted]) := by
    rw [eventsOf_append_singleton, hnothing, List.append_nil, h.eventsOf_eq]
  have hstarts : (front ++ [counted.extended torn] ++
      [(⟨offset, []⟩ : LogFile)]).map LogFile.start =
        (front ++ [counted]).map LogFile.start ++ [offset] := by
    simp only [List.map_append, List.map_cons, List.map_nil, LogFile.start_extended]
  refine ⟨⟨{ recorder.writer with segment := LogFile.segment ⟨offset, []⟩ },
    recorder.directory.insert (Segment.fileName offset) (.file [])⟩, ?_, rfl,
    ⟨?_, ⟨rfl, Scan.Whole.nil⟩, Scan.frame?_nil,
      h.ordered_files.append_empty hnothing (h.eventsOf_eq.symm ▸ hbefore), ?_,
      fun hne ↦ absurd rfl hne, ?_⟩, hevents⟩
  · simp only [Writer.rotate, h.holds.canonical.createFile]
    rfl
  · refine h.holds.insert_next ⟨offset, []⟩ fun other hother ↦ ?_
    rcases List.mem_append.mp hother with hfront | hsame
    · have hascending := (List.pairwise_append.mp h.holds.ascending).2.2
      exact Std.lt_trans (hascending other hfront _ List.mem_cons_self) hstart
    · rw [List.mem_singleton.mp hsame]
      exact hstart
  · rw [hevents]
    exact h.le_last
  · rw [hstarts]
    intro start hstart'
    rcases List.mem_append.mp hstart' with hold | hnew
    · exact h.first_le start hold
    · rw [List.mem_singleton.mp hnew]
      have hfirst := h.first_le counted.start (by simp)
      exact Std.le_trans hfirst (Std.le_of_lt hstart)

/-! ### Appending -/

/-- An append that is refused before it writes changes nothing. -/
theorem Keeps.refuse (h : recorder.Keeps now events) {fault? : Option AppendFault} {error : LogError}
    (hwritten : fault? = some .sync → error ≠ Writer.ioFault) :
    Accounted now events event fault? (.error error, recorder.writer, recorder.directory) := by
  have hnone : Trial.written? ⟨.append event fault?, .error error⟩ = none := by
    unfold Trial.written? Trial.acknowledged? Trial.unconfirmed?
    cases fault? with
    | none => rfl
    | some fault =>
      cases fault with
      | rotationSync | rotationCreate | write => rfl
      | sync => exact if_neg (hwritten rfl)
  change Keeps recorder now (events ++ addition now _)
  rwa [addition, hnone, Option.map_none, Option.toList_none, List.append_nil]

theorem rotate_of_fault {writer : Writer} {directory : Directory} {start : Offset}
    {fault? : Option AppendFault} (h : fault? = some .rotationSync ∨ fault? = some .rotationCreate) :
    writer.rotate directory start fault? = .error Writer.ioFault := by
  unfold Writer.rotate
  rw [if_pos h]
  rfl

theorem rotate_of_not_fault {writer : Writer} {directory : Directory} {start : Offset}
    {fault? : Option AppendFault}
    (h : ¬ (fault? = some .rotationSync ∨ fault? = some .rotationCreate)) :
    writer.rotate directory start fault? = writer.rotate directory start none := by
  unfold Writer.rotate
  rw [if_neg h, if_neg (by simp)]

theorem Keeps.append (h : recorder.Keeps now events) (hadmits : recorder.admits event = true)
    {fault? : Option AppendFault} (hvalid : (Attempt.append event fault?).IsValid) :
    Accounted now events event fault?
      (recorder.writer.append recorder.directory event fault?) := by
  by_cases hle : event.offset ≤ recorder.writer.last
  · rw [Writer.append_of_le hle]
    exact h.refuse fun _ ↦ nofun
  have hlast : recorder.writer.last < event.offset := Std.not_le.mp hle
  cases hencode : Entry.encode event with
  | error error =>
    rw [Writer.append_of_encode_eq_error hlast hencode]
    refine h.refuse fun _ ↦ ?_
    rintro rfl
    unfold Entry.encode at hencode
    split at hencode <;> cases hencode
  | ok entry =>
    have hpart : ∀ stored, fault? = some (.write stored) → stored < entry.length :=
      fun stored hfault ↦ hvalid.2 stored entry hfault hencode
    obtain ⟨front, counted, torn, hstands, rfl⟩ := h
    have hcounted : recorder.writer.segment.size = counted.octets.length := by
      rw [hstands.endsAt.segment_eq, LogFile.segment]
    unfold Writer.append
    simp only [if_neg hle, hencode]
    by_cases hrotate : recorder.writer.mustRotate entry.length = true
    · rw [if_pos hrotate]
      by_cases hfault : fault? = some .rotationSync ∨ fault? = some .rotationCreate
      · rw [rotate_of_fault hfault]
        refine Keeps.refuse ⟨front, counted, torn, hstands, rfl⟩ fun hsync ↦ ?_
        simp [hsync] at hfault
      · have hne : counted.octets ≠ [] := by
          rintro hnil
          simp [Writer.mustRotate, hcounted, hnil] at hrotate
        obtain ⟨rotated, hrotated, hsame, hnew, hevents⟩ := hstands.rotate hlast hne
        rw [rotate_of_not_fault hfault, hrotated, ← hevents]
        exact hnew.writeEntry hvalid.1 hencode (Std.le_refl _) (hsame ▸ hlast) hpart
    · rw [if_neg hrotate]
      simp only [admits, hencode, hle, hrotate, decide_false, Bool.false_or, Bool.and_eq_true,
        decide_eq_true_eq] at hadmits
      obtain ⟨hstart, hsize⟩ := hadmits
      have hfile := (hstands.holds.mem_iff _).mp (List.mem_append_right front List.mem_cons_self)
      rw [hstands.endsAt.segment_eq] at hstart hsize
      rw [LogFile.start_extended] at hfile
      simp only [LogFile.segment, hfile, Option.any_some, Node.size, LogFile.extended,
        List.length_append, beq_iff_eq] at hsize
      obtain rfl : torn = [] := List.length_eq_zero_iff.mp (by omega)
      exact hstands.writeEntry hvalid.1 hencode hstart hlast hpart

/-! ### Directories in the way -/

/-- If this is the name of a segment, then it is spelled as a new segment's would be and does not stand
for null. -/
def IsCanonicalName (name : String) : Prop :=
  ∀ start, Segment.ofFileName? name = some start → name = Segment.fileName start ∧ .first ≤ start

theorem isCanonicalName_fileName {offset : Offset} (hoffset : offset ≠ .null) :
    IsCanonicalName (Segment.fileName offset) := by
  intro start hstart
  rw [Segment.ofFileName?_fileName] at hstart
  obtain rfl := Option.some.inj hstart
  exact ⟨rfl, Serial.first_le_of_ne_null hoffset⟩

/-- A directory is in the way of a segment. -/
structure Blocked (recorder : Recorder) : Prop where
  named : ∀ name node, recorder.directory[name]? = some node → IsCanonicalName name
  isFile : ∃ octets, recorder.directory[recorder.writer.segment.name]? = some (.file octets)
  exists_directory : ∃ start, recorder.directory[Segment.fileName start]? = some .directory

theorem isCanonicalName_insert {directory : Directory} {name : String} {node : Node}
    (hnamed : ∀ name node, directory[name]? = some node → IsCanonicalName name)
    (hname : IsCanonicalName name) :
    ∀ other node', (directory.insert name node)[other]? = some node' → IsCanonicalName other := by
  intro other node' hnode
  rw [getElem?_insert_eq_ite] at hnode
  split at hnode
  · rename_i hsame
    exact hsame ▸ hname
  · exact hnamed other node' hnode

/-- What stands under other names does not change. -/
theorem getElem?_insert_of_ne {directory : Directory} {name other : String} {node node' : Node}
    (hother : directory[other]? = some node') (hname : directory[name]? ≠ some node') :
    (directory.insert name node)[other]? = some node' := by
  rw [getElem?_insert_eq_ite, if_neg]
  · exact hother
  · rintro rfl
    exact hname hother

/-- A file that is created or written leaves the directory in the way. -/
theorem Blocked.insertFile (h : recorder.Blocked) {name : String} {octets : Octets} {writer : Writer}
    (hfree : recorder.directory[name]? ≠ some .directory) (hname : IsCanonicalName name)
    (hwriter : writer.segment.name = name) :
    Blocked ⟨writer, recorder.directory.insert name (.file octets)⟩ := by
  refine ⟨isCanonicalName_insert h.named hname, ⟨octets, ?_⟩, ?_⟩
  · rw [hwriter]
    exact Std.ExtTreeMap.getElem?_insert_self
  · obtain ⟨start, hdirectory⟩ := h.exists_directory
    exact ⟨start, getElem?_insert_of_ne hdirectory hfree⟩

theorem Blocked.extendFile (h : recorder.Blocked) (octets : Octets) {writer : Writer}
    (hwriter : writer.segment.name = recorder.writer.segment.name) :
    Blocked ⟨writer, recorder.writer.extendFile recorder.directory octets⟩ := by
  obtain ⟨stored, hstored⟩ := h.isFile
  unfold Writer.extendFile
  simp only [hstored]
  exact h.insertFile (by simp [hstored]) (h.named _ _ hstored) hwriter

theorem Blocked.writeEntry (h : recorder.Blocked) (offset : Offset) (entry : Octets)
    (fault? : Option AppendFault) :
    let written := recorder.writer.writeEntry recorder.directory offset entry fault?
    Blocked ⟨written.2.1, written.2.2⟩ := by
  cases fault? with
  | none => exact h.extendFile entry rfl
  | some fault =>
    cases fault with
    | rotationSync | rotationCreate | sync => exact h.extendFile entry rfl
    | write stored => exact h.extendFile (entry.take stored) rfl

theorem Blocked.rotate (h : recorder.Blocked) {offset : Offset} (hoffset : offset ≠ .null)
    {writer : Writer} {directory : Directory}
    (hrotate : recorder.writer.rotate recorder.directory offset none = .ok (writer, directory)) :
    Blocked ⟨writer, directory⟩ := by
  by_cases hfree : recorder.directory[Segment.fileName offset]? = some .directory
  · simp [Writer.rotate, Writer.createFile, hfree, bind, Except.bind] at hrotate
  · have hrotated : recorder.writer.rotate recorder.directory offset none =
        .ok ({ recorder.writer with segment := ⟨Segment.fileName offset, offset, 0⟩ },
          recorder.directory.insert (Segment.fileName offset) (.file [])) := by
      simp [Writer.rotate, Writer.createFile, bind, Except.bind, pure, Except.pure]
    obtain ⟨rfl, rfl⟩ := Prod.mk.inj (Except.ok.inj (hrotate.symm.trans hrotated))
    exact h.insertFile hfree (isCanonicalName_fileName hoffset) rfl

theorem Blocked.append (h : recorder.Blocked) (event : Event) (fault? : Option AppendFault) :
    (recorder.act (.append event fault?)).2.Blocked := by
  unfold act Writer.append
  by_cases hle : event.offset ≤ recorder.writer.last
  · simpa only [if_pos hle] using h
  simp only [if_neg hle]
  cases hencode : Entry.encode event with
  | error error => exact h
  | ok entry =>
    dsimp only
    by_cases hmust : recorder.writer.mustRotate entry.length = true
    · rw [if_pos hmust]
      by_cases hfault : fault? = some .rotationSync ∨ fault? = some .rotationCreate
      · rw [rotate_of_fault hfault]
        exact h
      rw [rotate_of_not_fault hfault]
      cases hrotate : recorder.writer.rotate recorder.directory event.offset none with
      | error error => exact h
      | ok rotated =>
        have hoffset : event.offset ≠ .null := by
          intro hnull
          exact hle (hnull ▸ UInt64.zero_le)
        exact (h.rotate hoffset hrotate).writeEntry event.offset entry fault?
    · rw [if_neg hmust]
      exact h.writeEntry event.offset entry fault?

/-- Nothing can be read where a directory is in the way. -/
theorem Blocked.readEvents_eq_error (h : recorder.Blocked) (now : Instant) :
    ∃ error, recorder.directory.readEvents now .first .toTheEnd = .error error := by
  have hascending := Directory.segments_ascending fun name node start hnode hstart ↦
    (h.named name node hnode start hstart).1
  have hfirst : ∀ segment ∈ recorder.directory.segments, .first ≤ segment.start := by
    intro segment hsegment
    obtain ⟨node, hnode, hstart, -⟩ := (Directory.mem_segments_iff _ segment).mp hsegment
    exact (h.named _ _ hnode _ hstart).2
  obtain ⟨start, hdirectory⟩ := h.exists_directory
  have hsegment : ⟨Segment.fileName start, start, Node.directory.size⟩ ∈
      recorder.directory.segments :=
    (Directory.mem_segments_iff _ _).mpr
      ⟨.directory, hdirectory, Segment.ofFileName?_fileName start, rfl⟩
  have hscan : recorder.directory.scan now (Segment.fileName start) =
      .error (.ofPathFault .isDirectory) := by
    unfold Directory.scan Directory.fileOctets Directory.contents
    rw [hdirectory]
    rfl
  obtain ⟨error, herror⟩ := Directory.collect_eq_error [] hascending hfirst
    ⟨_, hsegment, _, hscan⟩
  refine ⟨error, ?_⟩
  rw [Directory.readEvents, herror]
  rfl

/-! ### Runs -/

/-- A new directory is in the way of the segment that it is named for. -/
theorem blocked_obstruct {start : Offset} (hstart : start ≠ .null)
    (hfree : recorder.directory[Segment.fileName start]? = none)
    (hnamed : ∀ name node, recorder.directory[name]? = some node → IsCanonicalName name)
    (hfile : ∃ octets, recorder.directory[recorder.writer.segment.name]? = some (.file octets)) :
    Blocked ⟨recorder.writer, recorder.directory.insert (Segment.fileName start) .directory⟩ := by
  obtain ⟨octets, hoctets⟩ := hfile
  refine ⟨isCanonicalName_insert hnamed (isCanonicalName_fileName hstart), ⟨octets, ?_⟩,
    ⟨start, Std.ExtTreeMap.getElem?_insert_self⟩⟩
  exact getElem?_insert_of_ne hoctets (by simp [hfree])

theorem Blocked.obstruct (h : recorder.Blocked) {start : Offset} (hstart : start ≠ .null) :
    (recorder.obstruct start).Blocked := by
  unfold Recorder.obstruct
  cases hfree : recorder.directory[Segment.fileName start]? with
  | some node => exact h
  | none => exact blocked_obstruct hstart hfree h.named h.isFile

theorem Blocked.act (h : recorder.Blocked) {attempt : Attempt} (hvalid : attempt.IsValid) :
    (recorder.act attempt).2.Blocked := by
  cases attempt with
  | append event fault? => exact h.append event fault?
  | obstruct start => exact h.obstruct hvalid

theorem Blocked.run (h : recorder.Blocked) {attempts : List Attempt}
    (hvalid : ∀ attempt ∈ attempts, attempt.IsValid) : (recorder.run attempts).2.Blocked := by
  induction attempts generalizing recorder with
  | nil => exact h
  | cons attempt attempts ih =>
    exact ih (h.act (hvalid attempt List.mem_cons_self))
      fun later hlater ↦ hvalid later (List.mem_cons_of_mem _ hlater)

theorem Keeps.obstruct (h : recorder.Keeps now events) {start : Offset} (hstart : start ≠ .null) :
    (recorder.obstruct start).Keeps now events ∨ (recorder.obstruct start).Blocked := by
  unfold Recorder.obstruct
  cases hfree : recorder.directory[Segment.fileName start]? with
  | some node => exact Or.inl h
  | none =>
    obtain ⟨front, counted, torn, hstands, rfl⟩ := h
    refine Or.inr (blocked_obstruct hstart hfree ?_ ?_)
    · intro name node hnode start hread
      obtain ⟨rfl, octets, rfl⟩ := hstands.holds.canonical name node start hnode hread
      have hmem := (hstands.holds.mem_iff ⟨start, octets⟩).mpr hnode
      refine ⟨rfl, hstands.first_le start ?_⟩
      have hstarts : (front ++ [counted.extended torn]).map LogFile.start =
          (front ++ [counted]).map LogFile.start := by simp
      exact hstarts ▸ List.mem_map_of_mem hmem
    · refine ⟨counted.octets ++ torn, ?_⟩
      rw [hstands.endsAt.segment_eq]
      exact (hstands.holds.mem_iff _).mp (List.mem_append_right front List.mem_cons_self)

theorem Keeps.act (h : recorder.Keeps now events) {attempt : Attempt} (hvalid : attempt.IsValid)
    (hadmits : ∀ event fault?, attempt = .append event fault? → recorder.admits event = true) :
    (recorder.act attempt).2.Keeps now
        (events ++ addition now ⟨attempt, (recorder.act attempt).1⟩) ∨
      (recorder.act attempt).2.Blocked := by
  cases attempt with
  | append event fault? => exact Or.inl (h.append (hadmits event fault? rfl) hvalid)
  | obstruct start =>
    rcases h.obstruct hvalid with hkeeps | hblocked
    · exact Or.inl (events.append_nil.symm ▸ hkeeps)
    · exact Or.inr hblocked

theorem run_cons (recorder : Recorder) (attempt : Attempt) (attempts : List Attempt) :
    recorder.run (attempt :: attempts) =
      (⟨attempt, (recorder.act attempt).1⟩ :: ((recorder.act attempt).2.run attempts).1,
        ((recorder.act attempt).2.run attempts).2) := rfl

theorem undisturbed_cons {attempt : Attempt} {attempts : List Attempt}
    (h : recorder.undisturbed (attempt :: attempts) = true) :
    (∀ event fault?, attempt = .append event fault? → recorder.admits event = true) ∧
      (recorder.act attempt).2.undisturbed attempts = true := by
  obtain ⟨hnow, hlater⟩ := Bool.and_eq_true_iff.mp h
  refine ⟨?_, hlater⟩
  rintro event fault? rfl
  exact hnow

/-- The events whose entries were written are kept, unless a directory is in the way. -/
theorem Keeps.run (h : recorder.Keeps now events) {attempts : List Attempt}
    (hvalid : ∀ attempt ∈ attempts, attempt.IsValid)
    (hundisturbed : recorder.undisturbed attempts = true) :
    (recorder.run attempts).2.Keeps now
        (events ++ (recorder.run attempts).1.flatMap (addition now)) ∨
      (recorder.run attempts).2.Blocked := by
  induction attempts generalizing recorder events with
  | nil => exact Or.inl (events.append_nil.symm ▸ h)
  | cons attempt attempts ih =>
    obtain ⟨hadmits, hrest⟩ := undisturbed_cons hundisturbed
    have hlater : ∀ later ∈ attempts, later.IsValid :=
      fun later hlater ↦ hvalid later (List.mem_cons_of_mem _ hlater)
    rw [run_cons]
    rcases h.act (hvalid attempt List.mem_cons_self) hadmits with hkeeps | hblocked
    · rcases ih hkeeps hlater hrest with hkept | hblocked
      · rw [List.append_assoc] at hkept
        exact Or.inl hkept
      · exact Or.inr hblocked
    · exact Or.inr (hblocked.run hlater)

/-- The writer of a new directory, in its first segment. -/
def fresh (maxSegmentSize : Nat) : Recorder :=
  ⟨⟨⟨Segment.fileName .first, .first, 0⟩, .null, maxSegmentSize⟩,
    (∅ : Directory).insert (Segment.fileName .first) (.file [])⟩

theorem openIn_none (now : Instant) (maxSegmentSize : Nat) :
    Writer.openIn none now maxSegmentSize =
      .ok ((fresh maxSegmentSize).writer, (fresh maxSegmentSize).directory) := by
  have hcreate := Directory.holds_empty.canonical.createFile .first
  change Writer.openFresh ∅ maxSegmentSize = _
  unfold Writer.openFresh
  simp only [hcreate]
  rfl

theorem keeps_fresh (now : Instant) (maxSegmentSize : Nat) :
    (fresh maxSegmentSize).Keeps now [] := by
  refine ⟨[], ⟨.first, []⟩, [], ⟨?_, ⟨rfl, Scan.Whole.nil⟩, Scan.frame?_nil,
    ?_, fun _ hevent ↦ absurd hevent List.not_mem_nil, fun hne ↦ absurd rfl hne, ?_⟩, rfl⟩
  · exact Directory.holds_empty.insert_next ⟨.first, []⟩
      fun _ hother ↦ absurd hother List.not_mem_nil
  · exact (ordered_nil now).append_empty rfl fun _ hevent ↦ absurd hevent List.not_mem_nil
  · intro start hstart
    rw [List.mem_singleton.mp hstart]
    exact Std.le_refl _

theorem Keeps.first_le (h : recorder.Keeps now events) :
    ∀ event ∈ events, .first ≤ event.offset := by
  obtain ⟨front, counted, torn, hstands, rfl⟩ := h
  intro event hevent
  obtain ⟨file, hfile, hevent⟩ := List.mem_flatMap.mp hevent
  exact Std.le_trans (hstands.first_le file.start (List.mem_map_of_mem hfile))
    ((hstands.ordered.inside file hfile).2 event hevent)

theorem Keeps.not_directory (h : recorder.Keeps now events) (start : Offset) :
    recorder.directory[Segment.fileName start]? ≠ some .directory := by
  obtain ⟨front, counted, torn, hstands, -⟩ := h
  intro hdirectory
  obtain ⟨-, octets, hfile⟩ :=
    hstands.holds.canonical _ _ start hdirectory (Segment.ofFileName?_fileName start)
  contradiction

/-- As long as nothing is written behind what a failed write left, every event whose entry was written
is read, in order, unless a directory is in the way. So exactly the acknowledged events are read if and
only if none was written without being made durable and no directory is in the way. -/
theorem reads_acknowledged_iff (now : Instant) (maxSegmentSize : Nat) :
    Writer.openIn none now maxSegmentSize =
        .ok ((fresh maxSegmentSize).writer, (fresh maxSegmentSize).directory) ∧
      ∀ attempts trials after, (∀ attempt ∈ attempts, attempt.IsValid) →
        (fresh maxSegmentSize).undisturbed attempts = true →
        (fresh maxSegmentSize).run attempts = (trials, after) →
        ((∀ start, after.directory[Segment.fileName start]? ≠ some .directory) →
          ∀ start limit, after.directory.readEvents now start limit =
            .ok (limit.take
              (((trials.filterMap Trial.written?).map (Event.kept now)).filter
                (start ≤ ·.offset)))) ∧
        (after.directory.readEvents now .first .toTheEnd =
            .ok ((trials.filterMap Trial.acknowledged?).map (Event.kept now)) ↔
          (∀ trial ∈ trials, trial.unconfirmed? = none) ∧
            ∀ start, after.directory[Segment.fileName start]? ≠ some .directory) := by
  refine ⟨openIn_none now maxSegmentSize, ?_⟩
  intro attempts trials after hvalid hundisturbed hresult
  have hrun := (keeps_fresh now maxSegmentSize).run hvalid hundisturbed
  rw [hresult] at hrun
  have haddition : trials.flatMap (addition now) =
      (trials.filterMap Trial.written?).map (Event.kept now) := by
    rw [List.map_filterMap, List.filterMap_eq_flatMap_toList]
    rfl
  rw [List.nil_append, haddition] at hrun
  rcases hrun with hkeeps | hblocked
  · refine ⟨fun _ ↦ hkeeps.readEvents_eq, ?_⟩
    have hall : ((trials.filterMap Trial.written?).map (Event.kept now)).filter
        (.first ≤ ·.offset) = (trials.filterMap Trial.written?).map (Event.kept now) :=
      List.filter_eq_self.mpr fun event hevent ↦ decide_eq_true (hkeeps.first_le event hevent)
    rw [hkeeps.readEvents_eq, hall, ReadLimit.take, Except.ok.injEq, Trial.map_written?_eq_iff]
    exact ⟨fun hconfirmed ↦ ⟨hconfirmed, hkeeps.not_directory⟩, And.left⟩
  · obtain ⟨start, hdirectory⟩ := hblocked.exists_directory
    refine ⟨fun hnone ↦ absurd hdirectory (hnone start), ?_⟩
    obtain ⟨error, herror⟩ := hblocked.readEvents_eq_error now
    rw [herror]
    constructor
    · intro hread
      contradiction
    · rintro ⟨-, hnone⟩
      exact absurd hdirectory (hnone start)

/-! ### Three losses -/

/-- Every event needs a segment of its own, and there is a directory in the place of the second. -/
def obstructed : List Attempt :=
  [.append (.blank 1) none, .obstruct ⟨2⟩, .append (.blank 2) none, .append (.blank 3) none]

-- Appending takes checksums.
set_option maxRecDepth 20000 in
theorem acknowledged_obstructed :
    ((fresh 1).run obstructed).1.filterMap Trial.acknowledged? = [.blank 1, .blank 3] := by
  decide +kernel

set_option maxRecDepth 20000 in
theorem undisturbed_obstructed : (fresh 1).undisturbed obstructed = true := by
  decide +kernel

set_option maxRecDepth 20000 in
theorem directory_obstructed :
    ((fresh 1).run obstructed).2.directory[Segment.fileName ⟨2⟩]? = some .directory := by
  decide +kernel

/-- The third event is acknowledged after the second was refused, and then nothing can be read. -/
theorem obstructed_unreadable :
    Writer.openIn none default 1 = .ok ((fresh 1).writer, (fresh 1).directory) ∧
      ((fresh 1).run obstructed).1.filterMap Trial.acknowledged? = [.blank 1, .blank 3] ∧
      ((fresh 1).run obstructed).2.directory.readEvents default .first .toTheEnd ≠
        .ok [.blank 1, .blank 3] := by
  have hvalid : ∀ attempt ∈ obstructed, attempt.IsValid := by
    have happend (offset : UInt64) : (Attempt.append (.blank offset) none).IsValid :=
      ⟨Event.isStorable_blank offset, nofun⟩
    intro attempt hattempt
    simp only [obstructed, List.mem_cons, List.not_mem_nil, or_false] at hattempt
    rcases hattempt with rfl | rfl | rfl | rfl
    · exact happend 1
    · exact (by decide : (⟨2⟩ : Offset) ≠ .null)
    · exact happend 2
    · exact happend 3
  obtain ⟨hopen, hrun⟩ := reads_acknowledged_iff default 1
  have hiff := (hrun obstructed _ _ hvalid undisturbed_obstructed (Prod.eta _).symm).2
  rw [acknowledged_obstructed] at hiff
  simp only [List.map_cons, List.map_nil, Event.kept_blank] at hiff
  refine ⟨hopen, acknowledged_obstructed, fun hread ↦ ?_⟩
  exact (hiff.mp hread).2 ⟨2⟩ directory_obstructed

set_option maxRecDepth 20000 in
/-- What a failed write left swallows the two events that are acknowledged after it. -/
theorem leftover_swallows :
    let (trials, after) := (fresh 1000).run
      [.append (.blank 1) (some (.write 10)), .append (.blank 1) none, .append (.blank 2) none]
    trials.filterMap Trial.acknowledged? = [.blank 1, .blank 2] ∧
      after.directory.readEvents default .first .toTheEnd = .ok [] := by
  decide +kernel

set_option maxRecDepth 20000 in
/-- A segment whose first write failed takes an event from before its start. It is emptied when it is
begun again. -/
theorem segment_emptied :
    let (trials, after) := (fresh 1).run
      [.append (.blank 1) none, .append (.blank 5) (some (.write 0)), .append (.blank 3) none,
        .append (.blank 5) none]
    trials.filterMap Trial.acknowledged? = [.blank 1, .blank 3, .blank 5] ∧
      after.directory.readEvents default .first .toTheEnd = .ok [.blank 1, .blank 5] := by
  decide +kernel

end Recorder

end LogSequencing
