import LogSequencing.Log.Memory
import LogSequencing.Proofs.Log.Session

/-!
# Logs in files agree with logs in memory

Whatever is done to the log of a partition, a log in files answers as one in memory does
(`FileSession.answers_eq`). Two things set them apart: a log in files keeps times in milliseconds
(`Event.kept`), and it refuses an event whose entry is longer than any may be (`Entry.refusal?`). Such an
event a log in memory would accept (`FileSession.answers_ne`).
-/

set_option autoImplicit false
set_option relaxedAutoImplicit false

namespace LogSequencing

/-- Why a log in files refuses an event in any case. -/
def Entry.refusal? (event : Event) : Option LogError :=
  if maxLength < length event then some (.entryTooLarge (length event) maxLength) else none

/-- The reading of a log that keeps what a log in files keeps. -/
def Reading.keptAt (now : Instant) (reading : Reading) : Reading :=
  ⟨reading.visited.map (Event.kept now), reading.failure?⟩

theorem Reading.visit_map_kept (now : Instant) (objection? : Event → Option LogError)
    (events : List Event) :
    visit objection? (events.map (Event.kept now)) =
      (visit (fun event ↦ objection? (event.kept now)) events).keptAt now := by
  induction events with
  | nil => rfl
  | cons event events ih =>
    rw [List.map_cons, visit, visit]
    cases objection? (event.kept now) with
    | some error => rfl
    | none =>
      simp only [ih]
      rfl

theorem ReadLimit.take_map {α β : Type} (limit : ReadLimit) (f : α → β) (items : List α) :
    limit.take (items.map f) = (limit.take items).map f := by
  cases limit with
  | toTheEnd => rfl
  | count n => exact List.map_take.symm

theorem filter_map_kept (now : Instant) (start : Offset) (events : List Event) :
    (events.map (Event.kept now)).filter (start ≤ ·.offset) =
      (events.filter (start ≤ ·.offset)).map (Event.kept now) := by
  rw [List.filter_map]
  rfl

/-- A log in memory that is used like one in files. It need not be opened, but nothing is appended to it
while it is closed. -/
structure MemorySession where
  log : MemoryLog
  isOpen : Bool
  now : Instant

namespace MemorySession

variable (refusal? : Event → Option LogError) (partition : PartitionId)

/-- Does to a log in memory what can be done to one in files. An event whose offset allows it may still
be refused. -/
def act (session : MemorySession) : LogAction → LogAnswer × MemorySession
  | .openWriter _ => (.result (.ok ()), { session with isOpen := true })
  | .close => (.nothing, { session with isOpen := false })
  | .append event =>
    if session.isOpen then
      match session.log.append partition event with
      | .error error => (.result (.error error), session)
      | .ok log =>
        match refusal? event with
        | some error => (.result (.error error), session)
        | none => (.result (.ok ()), { session with log })
    else
      (.nothing, session)
  | .read start limit objection? =>
    let (reading, log) := session.log.read partition start limit
      fun event ↦ objection? (event.kept session.now)
    (.reading (reading.keptAt session.now), { session with log })
  | .passTime now => (.nothing, { session with now })

/-- A log in memory accepts and refuses as a log in files does, if it is to refuse what does not fit
into an entry. -/
theorem append_cases {session : MemorySession} (hopen : session.isOpen = true) (event : Event) :
    (∃ error, appendResult (session.log.lastOffset partition) event = .error error ∧
      session.act Entry.refusal? partition (.append event) = (.result (.error error), session)) ∨
    (appendResult (session.log.lastOffset partition) event = .ok () ∧
      ∃ log : MemoryLog, session.act Entry.refusal? partition (.append event) =
          (.result (.ok ()), { session with log }) ∧
        log.events partition = session.log.events partition ++ [event] ∧
        log.lastOffset partition = event.offset ∧ log.failingReads = session.log.failingReads) := by
  simp only [act, hopen, if_true, MemoryLog.append, appendResult]
  by_cases hle : event.offset ≤ session.log.lastOffset partition
  · simp only [if_pos hle]
    exact Or.inl ⟨_, rfl, rfl⟩
  simp only [if_neg hle, Entry.refusal?, Entry.encode]
  by_cases hlarge : Entry.maxLength < Entry.length event
  · simp only [if_pos hlarge]
    exact Or.inl ⟨_, rfl, rfl⟩
  · simp only [if_neg hlarge]
    refine Or.inr ⟨rfl, _, rfl, ?_, ?_, rfl⟩
    · simp [MemoryLog.events]
    · simp [MemoryLog.lastOffset, MemoryLog.events]

end MemorySession

namespace FileSession

variable {partition : PartitionId}

/-- A log in files holds what a log in memory holds. -/
structure Agrees (partition : PartitionId) (file : FileSession) (memory : MemorySession) : Prop where
  keeps : ∀ now, file.Keeps partition now ((memory.log.events partition).map (Event.kept now))
    (memory.log.lastOffset partition)
  isOpen_eq : memory.isOpen = file.writer?.isSome
  now_eq : memory.now = file.log.now
  /-- Reads of the log in memory do not fail. -/
  failingReads_eq : memory.log.failingReads = 0

theorem agrees_empty (partition : PartitionId) (root : String) (now : Instant) :
    Agrees partition ⟨.empty root now, none⟩ ⟨.empty, false, now⟩ := by
  refine ⟨fun later ↦ ⟨rfl, [], ?_, ordered_nil later, rfl, ?_, fun _ hopen ↦ nomatch hopen⟩,
    rfl, rfl, rfl⟩
  · exact Directory.holds_empty
  · rfl

variable {file : FileSession} {memory : MemorySession}

/-- An append does nothing, is refused alike and changes nothing, or is accepted by both logs. -/
theorem Agrees.append_cases (h : Agrees partition file memory) {event : Event}
    (hstorable : event.IsStorable) :
    (file.act partition (.append event) = (.nothing, file) ∧
      memory.act Entry.refusal? partition (.append event) = (.nothing, memory)) ∨
    (∃ error, file.act partition (.append event) = (.result (.error error), file) ∧
      memory.act Entry.refusal? partition (.append event) = (.result (.error error), memory)) ∨
    ∃ file' memory', file.act partition (.append event) = (.result (.ok ()), file') ∧
      memory.act Entry.refusal? partition (.append event) = (.result (.ok ()), memory') ∧
      Agrees partition file' memory' := by
  cases hwriter : file.writer? with
  | none =>
    have hclosed : memory.isOpen = false := by rw [h.isOpen_eq, hwriter, Option.isSome_none]
    refine Or.inl ⟨?_, ?_⟩
    · simp only [FileSession.act, hwriter]
    · simp [MemorySession.act, hclosed]
  | some writer =>
    have hopen : memory.isOpen = true := by rw [h.isOpen_eq, hwriter, Option.isSome_some]
    have hfile (now : Instant) := (h.keeps now).append hwriter hstorable
    rcases MemorySession.append_cases partition hopen event with
      ⟨error, hresult, hmemory⟩ | ⟨hresult, log, hmemory, hevents, hlast, hreads⟩
    · have hrefused : appendResult (memory.log.lastOffset partition) event ≠ .ok () := by
        rw [hresult]
        intro hok
        contradiction
      obtain ⟨other, hother, hact⟩ := (hfile default).resolve_right fun hok ↦ hrefused hok.1
      obtain rfl : error = other := Except.error.inj (hresult.symm.trans hother)
      exact Or.inr (Or.inl ⟨error, hact, hmemory⟩)
    · have haccepted (now : Instant) := (hfile now).resolve_left <| by
        rw [hresult]
        rintro ⟨error, herror, -⟩
        contradiction
      obtain ⟨-, file', hact, -, hafter, hnow⟩ := haccepted default
      refine Or.inr (Or.inr ⟨file', _, hact, hmemory, fun now ↦ ?_, ?_, ?_, ?_⟩)
      · obtain ⟨-, file'', hact', hkeeps, -⟩ := haccepted now
        obtain rfl : file' = file'' := congrArg Prod.snd (hact.symm.trans hact')
        rw [hevents, hlast, List.map_append]
        exact hkeeps
      · exact hopen.trans hafter.symm
      · exact h.now_eq.trans hnow.symm
      · exact hreads.trans h.failingReads_eq

/-- Every action has the same answer in both logs, and they go on to agree. -/
theorem Agrees.act (h : Agrees partition file memory) {action : LogAction}
    (hstorable : ∀ event, action = .append event → event.IsStorable) :
    (file.act partition action).1 = (memory.act Entry.refusal? partition action).1 ∧
      Agrees partition (file.act partition action).2
        (memory.act Entry.refusal? partition action).2 := by
  cases action with
  | openWriter maxSegmentSize =>
    obtain ⟨after, hact, -, hopen, hnow⟩ := (h.keeps default).openWriter maxSegmentSize
    rw [hact]
    refine ⟨rfl, fun now ↦ ?_, hopen.symm, h.now_eq.trans hnow.symm, h.failingReads_eq⟩
    obtain ⟨after', hact', hkeeps, -⟩ := (h.keeps now).openWriter maxSegmentSize
    obtain rfl : after = after' := congrArg Prod.snd (hact.symm.trans hact')
    exact hkeeps
  | close => exact ⟨rfl, fun now ↦ (h.keeps now).close, rfl, h.now_eq, h.failingReads_eq⟩
  | append event =>
    rcases h.append_cases (hstorable event rfl) with
      ⟨hfile, hmemory⟩ | ⟨error, hfile, hmemory⟩ | ⟨file', memory', hfile, hmemory, hagrees⟩
    · rw [hfile, hmemory]
      exact ⟨rfl, h⟩
    · rw [hfile, hmemory]
      exact ⟨rfl, h⟩
    · rw [hfile, hmemory]
      exact ⟨rfl, hagrees⟩
  | read start limit objection? =>
    have hread := (h.keeps file.log.now).read start limit objection?
    rw [filter_map_kept, ReadLimit.take_map, Reading.visit_map_kept, ← h.now_eq] at hread
    have hmemory : memory.act Entry.refusal? partition (.read start limit objection?) =
        (.reading (.keptAt memory.now (.visit (fun event ↦ objection? (event.kept memory.now))
          (memory.log.select partition start limit))), memory) := by
      simp only [MemorySession.act, MemoryLog.read, h.failingReads_eq]
    rw [hmemory]
    exact ⟨congrArg LogAnswer.reading hread, h⟩
  | passTime later =>
    exact ⟨rfl, fun now ↦ (h.keeps now).passTime later, h.isOpen_eq, rfl, h.failingReads_eq⟩

/-- Logs that agree answer any actions alike. -/
theorem Agrees.run (h : Agrees partition file memory) {actions : List LogAction}
    (hstorable : ∀ event, .append event ∈ actions → event.IsStorable) :
    (runActions (FileSession.act partition) file actions).1 =
        (runActions (MemorySession.act Entry.refusal? partition) memory actions).1 ∧
      Agrees partition (runActions (FileSession.act partition) file actions).2
        (runActions (MemorySession.act Entry.refusal? partition) memory actions).2 := by
  induction actions generalizing file memory with
  | nil => exact ⟨rfl, h⟩
  | cons action actions ih =>
    obtain ⟨hanswer, hstep⟩ := h.act fun event heq ↦ hstorable event (heq ▸ List.mem_cons_self)
    obtain ⟨hanswers, hrun⟩ :=
      ih hstep fun event hevent ↦ hstorable event (List.mem_cons_of_mem _ hevent)
    rw [runActions_cons, runActions_cons, hanswer, hanswers]
    exact ⟨rfl, hrun⟩

/-- **A log in files is a log in memory.** Whatever writers are opened and closed, events appended and
read, and limits and objections given, both logs give the same answers: they accept the same events,
refuse the others with the same error, and their reads visit the same events and end alike, but that a
log in files keeps times in milliseconds and refuses what does not fit into an entry. A refused event
changes nothing in either, and a read visits the accepted events from an offset on, up to its limit.
The events appended are such as a log can hold (`Event.IsStorable`); from 4 GiB on the 32-bit length of
an entry wraps. -/
theorem answers_eq (partition : PartitionId) (root : String) (now : Instant) {actions : List LogAction}
    (hstorable : ∀ event, .append event ∈ actions → event.IsStorable) :
    let file := runActions (FileSession.act partition) ⟨.empty root now, none⟩ actions
    let memory := runActions (MemorySession.act Entry.refusal? partition) ⟨.empty, false, now⟩ actions
    file.1 = memory.1 ∧
    (∀ (event : Event) (error : LogError), event.IsStorable →
      (file.2.act partition (.append event)).1 = .result (.error error) →
        (file.2.act partition (.append event)).2 = file.2 ∧
        memory.2.act Entry.refusal? partition (.append event) = (.result (.error error), memory.2)) ∧
    ∀ start limit objection?, file.2.log.read partition start limit objection? =
      .visit objection? (limit.take (((accepted actions file.1).map
        (Event.kept file.2.log.now)).filter (start ≤ ·.offset))) := by
  intro file memory
  have hrun : file.1 = memory.1 ∧ Agrees partition file.2 memory.2 :=
    (agrees_empty partition root now).run hstorable
  refine ⟨hrun.1, ?_, ?_⟩
  · intro event error hevent hrefused
    rcases hrun.2.append_cases hevent with
      ⟨hfile, -⟩ | ⟨other, hfile, hmemory⟩ | ⟨file', memory', hfile, -⟩
    · rw [hfile] at hrefused
      contradiction
    · rw [hfile] at hrefused
      obtain rfl := Except.error.inj (LogAnswer.result.inj hrefused)
      exact ⟨congrArg Prod.snd hfile, hmemory⟩
    · rw [hfile] at hrefused
      cases hrefused
  · intro start limit objection?
    have hstart := (agrees_empty partition root now).keeps file.2.log.now
    obtain ⟨last, hkeeps⟩ := hstart.run hstorable
    exact hkeeps.read start limit objection?

/-- The second event comes too late, the third goes to a new segment, and the fourth finds no writer. -/
def rotating : List LogAction :=
  [.openWriter 100, .append (.blank 3), .append (.blank 3), .append (.blank 8), .close,
    .append (.blank 9), .openWriter 1000, .append (.blank 12)]

-- Opening a writer again takes the checksums of all entries.
set_option maxRecDepth 20000 in
theorem accepted_rotating : accepted rotating
    (runActions (FileSession.act ⟨1⟩) ⟨.empty "logs" default, none⟩ rotating).1 =
      [.blank 3, .blank 8, .blank 12] := by
  decide +kernel

theorem rotating_answers_eq :
    (runActions (FileSession.act ⟨1⟩) ⟨.empty "logs" default, none⟩ rotating).1 =
        (runActions (MemorySession.act Entry.refusal? ⟨1⟩) ⟨.empty, false, default⟩ rotating).1 ∧
      (runActions (FileSession.act ⟨1⟩) ⟨.empty "logs" default, none⟩ rotating).2.log.read ⟨1⟩ ⟨4⟩
        (.count 1) noObjection = ⟨[.blank 8], none⟩ := by
  have hstorable : ∀ event, .append event ∈ rotating → event.IsStorable := by
    intro event hevent
    have hblank : event = .blank 3 ∨ event = .blank 3 ∨ event = .blank 8 ∨ event = .blank 9 ∨
        event = .blank 12 := by
      simpa [rotating] using hevent
    rcases hblank with rfl | rfl | rfl | rfl | rfl <;> exact Event.isStorable_blank _
  obtain ⟨hanswers, -, hread⟩ := answers_eq ⟨1⟩ "logs" default hstorable
  have hwanted : ([.blank 3, .blank 8, .blank 12] : List Event).filter (⟨4⟩ ≤ ·.offset) =
      [.blank 8, .blank 12] := by decide
  have hvisited := hread ⟨4⟩ (.count 1) noObjection
  rw [accepted_rotating] at hvisited
  simp only [List.map_cons, List.map_nil, Event.kept_blank, hwanted] at hvisited
  exact ⟨hanswers, hvisited⟩

/-! ### An event that does not fit -/

/-- An event with so many mutations and one more. -/
def crowded (count : Nat) : Event :=
  ⟨.first, .ofMilliseconds 0, ⟨1⟩, .first, List.replicate (count + 1) ⟨.null, .cDoc, false⟩, []⟩

theorem length_printItems_replicate (count : Nat) (value : Json.Value) :
    (Json.Value.printItems (List.replicate (count + 1) value)).length =
      (count + 1) * value.print.length + count := by
  induction count with
  | zero => rw [Nat.one_mul]; rfl
  | succ count ih =>
    have hprint : Json.Value.printItems (List.replicate (count + 2) value) =
        value.print ++ 0x2c :: Json.Value.printItems (List.replicate (count + 1) value) := rfl
    rw [hprint, List.length_append, List.length_cons, ih, Nat.add_mul (count + 1) 1]
    omega

/-- Each mutation takes 41 octets, and all but the last a comma. -/
theorem length_body_crowded (count : Nat) :
    (Entry.body (crowded count)).length = 42 * count + 69 := by
  let mutation : Json.Value := Json.Stored.toJson (⟨.null, .cDoc, false⟩ : Mutation)
  have hmutation : mutation.print.length = 41 := by decide +kernel
  have hmutations : ((Octets.ofText "cuds").flatMap Json.escape).length = 4 := by decide +kernel
  have harguments : ((Octets.ofText "arg_objects").flatMap Json.escape).length = 11 := by
    decide +kernel
  have hbody : Entry.body (crowded count) = (Json.Value.ofMembers [
      ("cuds", .array (List.replicate (count + 1) mutation)),
      ("arg_objects", .array [])]).print := by
    rw [← List.map_replicate]
    rfl
  rw [hbody]
  simp only [Json.Value.ofMembers, Json.Value.print, Json.Value.printMembers, Json.Value.printItems,
    Json.Value.quoted, List.map_cons, List.map_nil, List.length_append, List.length_cons,
    List.length_nil, length_printItems_replicate, hmutation, hmutations, harguments]
  omega

theorem length_crowded {count : Nat} (h : 42 * count + 109 < UInt32.size) :
    Entry.length (crowded count) = 42 * count + 109 := by
  unfold Entry.length
  rw [Entry.length_content, length_body_crowded, Nat.add_comm 40]
  exact Nat.mod_eq_of_lt h

/-- What the first event of a log in memory comes to. -/
theorem answers_first {event : Event} (hoffset : .null < event.offset)
    (refusal? : Event → Option LogError) (maxSegmentSize : Nat) :
    (runActions (MemorySession.act refusal? partition) ⟨.empty, false, default⟩
        [.openWriter maxSegmentSize, .append event]).1 =
      [.result (.ok ()), .result (match refusal? event with
        | some error => .error error
        | none => .ok ())] := by
  have hlast : MemoryLog.empty.lastOffset partition = .null := rfl
  have hlater : ¬ event.offset ≤ .null := Std.not_le.mpr hoffset
  simp only [runActions, MemorySession.act, if_true, MemoryLog.append, hlast, if_neg hlater]
  cases refusal? event <;> rfl

theorem isStorable_crowded {count : Nat} (hlarge : Entry.maxLength < Entry.length (crowded count)) :
    (crowded count).IsStorable := by
  have htime : (Instant.ofMilliseconds 0).IsValid := by decide
  exact ⟨htime, fun hfits ↦ absurd hfits (Nat.not_le.mpr hlarge)⟩

/-- A log in memory accepts an event that no log in files does. -/
theorem answers_ne_of_lt {count : Nat} (hlarge : Entry.maxLength < Entry.length (crowded count))
    (maxSegmentSize : Nat) :
    (runActions (FileSession.act partition) ⟨.empty "logs" default, none⟩
        [.openWriter maxSegmentSize, .append (crowded count)]).1 ≠
      (runActions (MemorySession.act noObjection partition) ⟨.empty, false, default⟩
        [.openWriter maxSegmentSize, .append (crowded count)]).1 := by
  have hoffset : .null < (crowded count).offset := (by decide : (.null : Offset) < .first)
  have hstorable : ∀ event, LogAction.append event ∈
      [.openWriter maxSegmentSize, .append (crowded count)] → event.IsStorable := by
    intro event hevent
    obtain rfl : event = crowded count := by simpa using hevent
    exact isStorable_crowded hlarge
  rw [((agrees_empty partition "logs" default).run hstorable).1,
    answers_first hoffset Entry.refusal?, answers_first hoffset noObjection]
  simp [Entry.refusal?, hlarge, noObjection]

theorem answers_ne :
    (runActions (FileSession.act ⟨1⟩) ⟨.empty "logs" default, none⟩
        [.openWriter 1000, .append (crowded 2000000)]).1 ≠
      (runActions (MemorySession.act noObjection ⟨1⟩) ⟨.empty, false, default⟩
        [.openWriter 1000, .append (crowded 2000000)]).1 := by
  have hlength : Entry.length (crowded 2000000) = 42 * 2000000 + 109 := length_crowded (by decide)
  have hlarge : Entry.maxLength < 42 * 2000000 + 109 := by decide
  exact answers_ne_of_lt (hlength ▸ hlarge) 1000

end FileSession

end LogSequencing
