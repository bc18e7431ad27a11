import LogSequencing.Proofs.Log.Agreement
import LogSequencing.Proofs.Log.Reopening

/-!
# Events that are too long

A writer refuses an event that does not fit into an entry. But the length that it looks at has 32 bits,
and for an event of 4 GiB or more it wraps: if little is left of it, the event is accepted. A scan then
takes the first octets of the entry for all of it, and if they have no room for the fields, the event
is not read (`Entry.decode_of_length_lt`). What follows them is taken for another entry. Where it begins
with zeros, as it may in the middle of a number, the scan ends (`Entry.scan_wrapped`).

So not every event that is appended can be read afterwards (`FileSession.refused_unread`), and not even
every one that is accepted (`FileSession.accepted_unread`).
-/

set_option autoImplicit false
set_option relaxedAutoImplicit false

namespace LogSequencing

/-! ### Entries that are cut short -/

namespace Entry

/-- An entry that has no room for the fields of fixed width is not decoded, whatever its checksum. -/
theorem decode_of_length_lt (now : Instant) {content : Octets} (h : content.length < 40) :
    (decode now content content.length).toOption = none := by
  by_cases hlong : 4 ≤ content.length
  · by_cases hsound : IsSound content
    · have hfield : field (content.drop 4) 32 4 = .error (.unexpectedEnd 32) := by
        rw [field, if_neg]
        rw [List.length_drop]
        omega
      rw [decode_of_isSound now hlong hsound, decodePayload, hfield]
      -- Whatever comes of the fields in front of it, that of the body's length is missing.
      cases (serialField (content.drop 4) 0 : Except LogError Offset) <;>
        cases field (content.drop 4) 8 8 <;>
        cases serialField (content.drop 4) 16 <;>
        cases serialField (content.drop 4) 24 <;>
        rfl
    · rw [decode_of_not_isSound now hlong hsound]
      rfl
  · rw [decode, if_pos (Or.inr (Nat.lt_of_not_le hlong))]
    rfl

variable {event : Event}

/-- The content of an entry up to the first octet of the workspace. -/
def beginning (event : Event) : Octets :=
  Octets.ofNatLE 4 (checksum (payload event)).toNat ++
    (Octets.ofNatLE 8 event.offset.val.toNat ++
      (ofSigned event.time.milliseconds ++ [UInt8.ofNat event.workspace.val.toNat]))

theorem length_beginning (event : Event) : (beginning event).length = 21 := by
  simp only [beginning, ofSigned, List.length_append, Octets.length_ofNatLE, List.length_singleton]

/-- The other octets of a small number are zero. -/
theorem content_eq (hworkspace : event.workspace.val.toNat < 256) :
    ∃ rest, content event = beginning event ++ ([0, 0, 0, 0, 0, 0, 0] ++ rest) := by
  have hnumber : Octets.ofNatLE 8 event.workspace.val.toNat =
      [UInt8.ofNat event.workspace.val.toNat] ++ [0, 0, 0, 0, 0, 0, 0] := by
    rw [Octets.ofNatLE, Nat.div_eq_of_lt hworkspace]
    rfl
  exact ⟨Octets.ofNatLE 8 event.workspaceOffset.val.toNat ++ (Octets.ofNatLE 4 (body event).length ++
    body event), by simp only [content, payload, beginning, hnumber, List.append_assoc]⟩

/-- Where the length of an entry has wrapped to 21, a scan finds nothing in it. -/
theorem scan_wrapped (now : Instant) (hworkspace : event.workspace.val.toNat < 256) :
    (Scan.ofOctets now (Octets.ofNatLE 4 21 ++ content event)).events = [] := by
  obtain ⟨rest, hcontent⟩ := content_eq hworkspace
  have hlength := length_beginning event
  have hframe : Scan.frame? (Octets.ofNatLE 4 (beginning event).length ++
      (beginning event ++ ([0, 0, 0, 0, 0, 0, 0] ++ rest))) =
        some ((beginning event).length, beginning event ++ ([0, 0, 0, 0, 0, 0, 0] ++ rest)) := by
    refine Scan.frame?_append ?_ ?_ ?_
    · exact List.ne_nil_of_length_pos (by omega)
    · rw [hlength]
      decide
    · omega
  have hzeros : Scan.frame? ([0, 0, 0, 0, 0, 0, 0] ++ rest) = none := if_pos (Or.inr (Or.inl rfl))
  have hscan := Scan.ofOctets_append now hframe
  rw [decode_of_length_lt now (by omega), Scan.ofOctets_of_frame?_eq_none now hzeros, hlength] at hscan
  rw [hcontent, hscan]
  rfl

end Entry

/-! ### The first event of a log -/

namespace FileSession

variable {partition : PartitionId} {log : FileLog} {event : Event}

/-- The session finds nothing in the log. -/
def ReadsNothing (partition : PartitionId) (session : FileSession) : Prop :=
  ∃ directory, session.log.directory? partition = some directory ∧
    ∀ now start, directory.readEvents now start .toTheEnd = .ok []

theorem readsNothing_of_holds {directory : Directory} {file : LogFile} (hholds : directory.Holds [file])
    (hnothing : ∀ now, file.events now = []) (writer? : Option Writer) :
    ReadsNothing partition ⟨log.setDirectory partition directory, writer?⟩ := by
  refine ⟨directory, directory?_setDirectory _ _ _, fun now start ↦ ?_⟩
  have hordered : Ordered now ([] ++ [file]) :=
    (ordered_nil now).append_empty (hnothing now) fun _ hevent ↦ absurd hevent List.not_mem_nil
  have hevents : eventsOf now ([] ++ [file]) = [] := by
    rw [eventsOf_append_singleton, hnothing]
    rfl
  rw [hholds.readEvents_eq hordered]
  exact congrArg (fun events ↦ Except.ok (ReadLimit.toTheEnd.take (events.filter (start ≤ ·.offset))))
    hevents

/-- A writer is opened in a directory without segments. -/
theorem openWriter_fresh (hunobstructed : log.obstacle? partition = none)
    (hfresh : ((log.directory? partition).getD ∅).Holds []) (maxSegmentSize : Nat) :
    ∃ writer directory, act partition ⟨log, none⟩ (.openWriter maxSegmentSize) =
        (.result (.ok ()), ⟨log.setDirectory partition directory, some writer⟩) ∧
      directory.Holds [⟨.first, []⟩] ∧ writer.EndsAt default ⟨.first, []⟩ ∧ writer.last = .null := by
  obtain ⟨writer, directory, hopen, hholds, hends, hlast⟩ := hfresh.openFresh maxSegmentSize
  refine ⟨writer, directory, ?_, hholds, hends, hlast⟩
  have hopenIn : Writer.openIn (log.directory? partition) log.now maxSegmentSize =
      .ok (writer, directory) := by
    simp only [Writer.openIn, hfresh.segments_eq, List.map_nil, List.getLast?_nil, hopen]
  simp only [act, FileLog.openWriter, hunobstructed, hopenIn]

theorem runActions_pair {session opened after : FileSession} {first second : LogAction}
    {answer reply : LogAnswer} (hfirst : act partition session first = (answer, opened))
    (hsecond : act partition opened second = (reply, after)) :
    runActions (act partition) session [first, second] = ([answer, reply], after) := by
  rw [runActions_cons, runActions_cons, hfirst]
  dsimp only
  rw [hsecond]
  rfl

/-- An event that cannot be encoded is refused, and there is nothing to read. -/
theorem refused_unread (hunobstructed : log.obstacle? partition = none)
    (hfresh : ((log.directory? partition).getD ∅).Holds []) (maxSegmentSize : Nat)
    (hoffset : .null < event.offset) {error : LogError} (hencode : Entry.encode event = .error error) :
    ∃ after, runActions (act partition) ⟨log, none⟩ [.openWriter maxSegmentSize, .append event] =
        ([.result (.ok ()), .result (.error error)], after) ∧ ReadsNothing partition after := by
  obtain ⟨writer, directory, hopen, hholds, hends, hlast⟩ :=
    openWriter_fresh hunobstructed hfresh maxSegmentSize
  let opened := log.setDirectory partition directory
  have hdirectory : opened.directory? partition = some directory := directory?_setDirectory _ _ _
  have happend : writer.append directory event none = (.error error, writer, directory) :=
    Writer.append_of_encode_eq_error (hlast ▸ hoffset) hencode none
  have hact : act partition ⟨opened, some writer⟩ (.append event) =
      (.result (.error error), ⟨opened.setDirectory partition directory, some writer⟩) := by
    simp only [act, FileLog.append, hdirectory, Option.getD_some, happend]
  exact ⟨_, runActions_pair hopen hact, readsNothing_of_holds hholds (fun _ ↦ rfl) _⟩

/-- An event may be accepted, and still there is nothing to read. -/
theorem accepted_unread (hunobstructed : log.obstacle? partition = none)
    (hfresh : ((log.directory? partition).getD ∅).Holds []) (maxSegmentSize : Nat)
    (hoffset : .null < event.offset) (hworkspace : event.workspace.val.toNat < 256)
    (hwraps : Entry.length event = 21) :
    ∃ after, runActions (act partition) ⟨log, none⟩ [.openWriter maxSegmentSize, .append event] =
        ([.result (.ok ()), .result (.ok ())], after) ∧ ReadsNothing partition after := by
  obtain ⟨writer, directory, hopen, hholds, hends, hlast⟩ :=
    openWriter_fresh hunobstructed hfresh maxSegmentSize
  let opened := log.setDirectory partition directory
  let entry := Octets.ofNatLE 4 21 ++ Entry.content event
  have hencode : Entry.encode event = .ok entry := by
    rw [Entry.encode, hwraps]
    exact if_neg (by decide)
  let extended : Writer := { writer with
    segment := { writer.segment with size := writer.segment.size + entry.length }
    last := event.offset }
  let written := directory.insert (Segment.fileName .first) (.file entry)
  have hdirectory : opened.directory? partition = some directory := directory?_setDirectory _ _ _
  have hheld : directory.Holds ([] ++ [⟨.first, []⟩]) := hholds
  have hwritten : Directory.Holds written ([] ++ [⟨.first, entry⟩]) := hheld.insert_last entry
  have happend : writer.append directory event none = (.ok (), extended, written) := by
    have hextend : writer.extendFile directory entry = written := hheld.extendFile hends entry
    have hstays : writer.mustRotate entry.length = false := by
      rw [Writer.mustRotate, hends.segment_eq]
      rfl
    rw [Writer.append, if_neg (Std.not_le.mpr (hlast ▸ hoffset)), hencode]
    simp only [hstays, Writer.writeEntry, hextend]
    rfl
  have hact : act partition ⟨opened, some writer⟩ (.append event) =
      (.result (.ok ()), ⟨opened.setDirectory partition written, some extended⟩) := by
    simp only [act, FileLog.append, hdirectory, Option.getD_some, happend]
  exact ⟨_, runActions_pair hopen hact,
    readsNothing_of_holds hwritten (fun now ↦ Entry.scan_wrapped now hworkspace) _⟩

/-- An event of 84 MB is refused. One of 4 GiB and a few octets is accepted, and lost. -/
theorem crowded_unread :
    let log := (FileLog.empty "logs" default).setDirectory ⟨1⟩ ∅
    (∃ error after, runActions (act ⟨1⟩) ⟨log, none⟩ [.openWriter 1000, .append (crowded 2000000)] =
        ([.result (.ok ()), .result (.error error)], after) ∧ ReadsNothing ⟨1⟩ after) ∧
      ∃ after, runActions (act ⟨1⟩) ⟨log, none⟩ [.openWriter 1000, .append (crowded 102261124)] =
        ([.result (.ok ()), .result (.ok ())], after) ∧ ReadsNothing ⟨1⟩ after := by
  intro log
  have hfresh : ((log.directory? ⟨1⟩).getD ∅).Holds [] := by
    rw [directory?_setDirectory]
    exact Directory.holds_empty
  have hoffset (count : Nat) : .null < (crowded count).offset := (by decide : (.null : Offset) < .first)
  refine ⟨?_, ?_⟩
  · have hlength : Entry.length (crowded 2000000) = 42 * 2000000 + 109 := length_crowded (by decide)
    obtain ⟨error, hencode⟩ : ∃ error, Entry.encode (crowded 2000000) = .error error :=
      ⟨_, if_pos (hlength ▸ (by decide : Entry.maxLength < 42 * 2000000 + 109))⟩
    exact ⟨error, refused_unread rfl hfresh 1000 (hoffset _) hencode⟩
  · have hwraps : Entry.length (crowded 102261124) = 21 := by
      rw [Entry.length, Entry.length_content, length_body_crowded]
      decide
    exact accepted_unread rfl hfresh 1000 (hoffset _) (by decide : (1 : UInt64).toNat < 256) hwraps

end FileSession

end LogSequencing
