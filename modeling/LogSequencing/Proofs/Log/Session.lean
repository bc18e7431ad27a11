import LogSequencing.Proofs.Log.Writer

/-!
# Sessions with a log

What is done to the log of one partition, one action after another: writers are opened and closed,
events are appended and read, and time passes. At any time at most one writer is open, and nobody else
changes the files.

`FileSession.Keeps` says which events a read finds and which offset the next event must exceed. What an
action does to them is told action by action, and `Keeps.run` for any sequence of actions: it adds the
accepted events and loses nothing. An event is accepted only behind all others, so the offsets in a log
increase (`Keeps.isIncreasing_run`).
-/

set_option autoImplicit false
set_option relaxedAutoImplicit false

namespace LogSequencing

/-- What can be done to the log of a partition. -/
inductive LogAction where
  /-- Opens a writer, in the place of one that may be open. -/
  | openWriter (maxSegmentSize : Nat)
  | close
  /-- Appends an event with the open writer. Where none is open, nothing happens. -/
  | append (event : Event)
  | read (start : Offset) (limit : ReadLimit) (objection? : Event → Option LogError)
  | passTime (now : Instant)

/-- What comes of an action. -/
inductive LogAnswer where
  | nothing
  | result (result : Except LogError Unit)
  | reading (reading : Reading)

/-- The answers to actions that are done one after another, and where they lead. -/
def runActions {σ : Type} (act : σ → LogAction → LogAnswer × σ) :
    σ → List LogAction → List LogAnswer × σ
  | session, [] => ([], session)
  | session, action :: actions =>
    let (answer, session) := act session action
    let (answers, session) := runActions act session actions
    (answer :: answers, session)

/-- The event that an action with this answer has added to a log. -/
def acceptedBy? : LogAction → LogAnswer → Option Event
  | .append event, .result (.ok ()) => some event
  | _, _ => none

/-- The events that actions with these answers have added to a log. -/
def accepted : List LogAction → List LogAnswer → List Event
  | action :: actions, answer :: answers =>
    (acceptedBy? action answer).toList ++ accepted actions answers
  | _, _ => []

/-- What an append comes to where the last offset is known. -/
def appendResult (last : Offset) (event : Event) : Except LogError Unit :=
  if event.offset ≤ last then
    .error (.offsetRegression event.offset last)
  else
    (Entry.encode event).map fun _ ↦ ()

/-- The log of a partition in files, and the writer that is open. -/
structure FileSession where
  log : FileLog
  writer? : Option Writer

namespace FileSession

variable (partition : PartitionId)

def act (session : FileSession) : LogAction → LogAnswer × FileSession
  | .openWriter maxSegmentSize =>
    match session.log.openWriter partition maxSegmentSize with
    | (.ok writer, log) => (.result (.ok ()), ⟨log, some writer⟩)
    | (.error error, log) => (.result (.error error), ⟨log, none⟩)
  | .close => (.nothing, { session with writer? := none })
  | .append event =>
    match session.writer? with
    | none => (.nothing, session)
    | some writer =>
      let (result, writer, log) := session.log.append partition writer event none
      (.result result, ⟨log, some writer⟩)
  | .read start limit objection? =>
    (.reading (session.log.read partition start limit objection?), session)
  | .passTime now => (.nothing, { session with log := { session.log with now } })

/-- The directory of the partition, empty where it is missing. -/
def directory (session : FileSession) : Directory := (session.log.directory? partition).getD ∅

/-- The log holds events that read as these at a time, and the next one must exceed an offset. -/
structure Keeps (session : FileSession) (now : Instant) (events : List Event) (last : Offset) :
    Prop where
  unobstructed : session.log.obstacle? partition = none
  exists_files : ∃ files, (session.directory partition).Holds files ∧ Ordered now files ∧
    eventsOf now files = events ∧ lastOffsetOf now files = last ∧
    ∀ writer, session.writer? = some writer →
      writer.Follows now (session.directory partition) files ∧
        session.log.directory? partition = some (session.directory partition)

variable {partition} {session : FileSession} {now : Instant} {events : List Event} {last : Offset}

/-! ### Actions one by one -/

theorem directory_eq {directory : Directory}
    (h : session.log.directory? partition = some directory) :
    session.directory partition = directory := by
  rw [FileSession.directory, h, Option.getD_some]

theorem directory?_setDirectory (log : FileLog) (partition : PartitionId) (directory : Directory) :
    (log.setDirectory partition directory).directory? partition = some directory :=
  Std.ExtTreeMap.getElem?_insert_self

theorem setDirectory_eq_self {log : FileLog} {directory : Directory}
    (h : log.directory? partition = some directory) : log.setDirectory partition directory = log := by
  have hsame : log.partitions.insert partition directory = log.partitions := by
    refine Std.ExtTreeMap.ext_getElem? fun other ↦ ?_
    rw [getElem?_insert_eq_ite]
    split
    · rename_i hsame
      rw [hsame]
      exact h.symm
    · rfl
  unfold FileLog.setDirectory
  rw [hsame]

/-- An offset may follow if it belongs behind all segments and all events. -/
theorem Keeps.last_lt_iff (h : session.Keeps partition now events last) (offset : Offset) :
    last < offset ↔ .null < offset ∧
      (∀ segment ∈ (session.directory partition).segments, segment.start ≤ offset) ∧
      ∀ event ∈ events, event.offset < offset := by
  obtain ⟨files, hholds, hordered, rfl, rfl, -⟩ := h.exists_files
  rw [Writer.lastOffsetOf_lt_iff hordered hholds.ascending, hholds.segments_eq,
    List.forall_mem_map]
  rfl

theorem Keeps.readEvents_eq (h : session.Keeps partition now events last) (start : Offset)
    (limit : ReadLimit) :
    (session.directory partition).readEvents now start limit =
      .ok (limit.take (events.filter (start ≤ ·.offset))) := by
  obtain ⟨files, hholds, hordered, rfl, -, -⟩ := h.exists_files
  exact hholds.readEvents_eq hordered start limit

/-- A log is read as the events that it holds. -/
theorem Keeps.read (h : session.Keeps partition session.log.now events last) (start : Offset)
    (limit : ReadLimit) (objection? : Event → Option LogError) :
    session.log.read partition start limit objection? =
      .visit objection? (limit.take (events.filter (start ≤ ·.offset))) := by
  have hread := h.readEvents_eq start limit
  unfold directory at hread
  unfold FileLog.read
  cases hdirectory : session.log.directory? partition with
  | some directory =>
    rw [hdirectory, Option.getD_some] at hread
    simp only [hread, Reading.ofExcept]
  | none =>
    -- A directory that is missing reads like an empty one.
    rw [hdirectory, Option.getD_none,
      Directory.holds_empty.readEvents_eq (ordered_nil session.log.now)] at hread
    rw [← Except.ok.inj hread]
    exact congrArg (Reading.visit objection?) (limit.take_nil).symm

theorem Keeps.openWriter (h : session.Keeps partition now events last) (maxSegmentSize : Nat) :
    ∃ after, session.act partition (.openWriter maxSegmentSize) = (.result (.ok ()), after) ∧
      after.Keeps partition now events last ∧ after.writer?.isSome ∧
      after.log.now = session.log.now := by
  obtain ⟨files, hholds, hordered, rfl, rfl, -⟩ := h.exists_files
  obtain ⟨writer, directory, written, hopen, hfollows, hevents, hlast⟩ :=
    hholds.openIn hordered maxSegmentSize
  rw [← Writer.openIn_eq _ now session.log.now] at hopen
  refine ⟨⟨session.log.setDirectory partition directory, some writer⟩, ?_, ⟨?_, written, ?_⟩, rfl, rfl⟩
  · simp only [act, FileLog.openWriter, h.unobstructed, hopen]
  · exact h.unobstructed
  · have hdirectory : FileSession.directory partition
        ⟨session.log.setDirectory partition directory, some writer⟩ = directory :=
      directory_eq (directory?_setDirectory _ _ _)
    rw [hdirectory]
    refine ⟨hfollows.holds, hfollows.ordered, hevents, hlast, ?_⟩
    rintro _ ⟨⟩
    exact ⟨hfollows, directory?_setDirectory _ _ _⟩

theorem Keeps.refuse (h : session.Keeps partition now events last) {writer : Writer}
    (hopen : session.writer? = some writer) {event : Event} {error : LogError}
    (hrefused : writer.append (session.directory partition) event none =
      (.error error, writer, session.directory partition)) :
    session.act partition (.append event) = (.result (.error error), session) := by
  obtain ⟨files, -, -, -, -, hwriter⟩ := h.exists_files
  obtain ⟨-, hdirectory⟩ := hwriter writer hopen
  unfold directory at hrefused hdirectory
  simp only [act, hopen, FileLog.append, hrefused, setDirectory_eq_self hdirectory]
  rw [← hopen]

/-- An event is refused if its offset does not exceed the last one or if it cannot be encoded, and then
changes nothing. Otherwise it is accepted and read after all others. -/
theorem Keeps.append (h : session.Keeps partition now events last) {writer : Writer}
    (hopen : session.writer? = some writer) {event : Event} (hstorable : event.IsStorable) :
    (∃ error, appendResult last event = .error error ∧
      session.act partition (.append event) = (.result (.error error), session)) ∨
    (appendResult last event = .ok () ∧
      ∃ after, session.act partition (.append event) = (.result (.ok ()), after) ∧
        after.Keeps partition now (events ++ [event.kept now]) event.offset ∧
        after.writer?.isSome ∧ after.log.now = session.log.now) := by
  obtain ⟨files, -, -, rfl, rfl, hwriter⟩ := h.exists_files
  obtain ⟨hfollows, -⟩ := hwriter writer hopen
  unfold appendResult
  rw [← hfollows.last_eq]
  by_cases hle : event.offset ≤ writer.last
  · refine Or.inl ⟨_, if_pos hle, ?_⟩
    exact h.refuse hopen (Writer.append_of_le hle none)
  rw [if_neg hle]
  have hlt : writer.last < event.offset := Std.not_le.mp hle
  cases hencode : Entry.encode event with
  | error error =>
    exact Or.inl ⟨error, rfl, h.refuse hopen (Writer.append_of_encode_eq_error hlt hencode none)⟩
  | ok entry =>
    obtain ⟨extended, directory, written, happend, hextended, hevents, hlast⟩ :=
      hfollows.append hstorable.1 hstorable.2 hencode hlt
    have hdirectory : FileSession.directory partition
        ⟨session.log.setDirectory partition directory, some extended⟩ = directory :=
      directory_eq (directory?_setDirectory _ _ _)
    refine Or.inr ⟨rfl, ⟨session.log.setDirectory partition directory, some extended⟩, ?_,
      ⟨h.unobstructed, written, ?_⟩, rfl, rfl⟩
    · unfold FileSession.directory at happend
      simp only [act, hopen, FileLog.append, happend]
    · rw [hdirectory]
      refine ⟨hextended.holds, hextended.ordered, hevents, hlast, ?_⟩
      rintro _ ⟨⟩
      exact ⟨hextended, directory?_setDirectory _ _ _⟩

theorem Keeps.close (h : session.Keeps partition now events last) :
    Keeps partition { session with writer? := none } now events last := by
  obtain ⟨files, hholds, hordered, hevents, hlast, -⟩ := h.exists_files
  exact ⟨h.unobstructed, files, hholds, hordered, hevents, hlast, fun _ hopen ↦ nomatch hopen⟩

theorem Keeps.passTime (h : session.Keeps partition now events last) (later : Instant) :
    Keeps partition { session with log := { session.log with now := later } } now events last :=
  ⟨h.unobstructed, h.exists_files⟩

/-! ### Any actions -/

/-- An action adds the event that it has made the log accept, and loses nothing. -/
theorem Keeps.act (h : session.Keeps partition now events last) {action : LogAction}
    (hstorable : ∀ event, action = .append event → event.IsStorable) :
    ∃ last, (session.act partition action).2.Keeps partition now
      (events ++ ((acceptedBy? action (session.act partition action).1).map
        (Event.kept now)).toList) last := by
  have hnothing {after : FileSession} (hkeeps : after.Keeps partition now events last) :
      after.Keeps partition now (events ++ ((none : Option Event).map (Event.kept now)).toList) last := by
    rwa [Option.map_none, Option.toList_none, List.append_nil]
  cases action with
  | openWriter maxSegmentSize =>
    obtain ⟨after, hopened, hkeeps, -⟩ := h.openWriter maxSegmentSize
    rw [hopened]
    exact ⟨last, hnothing hkeeps⟩
  | close => exact ⟨last, hnothing h.close⟩
  | read start limit objection? => exact ⟨last, hnothing h⟩
  | passTime later => exact ⟨last, hnothing (h.passTime later)⟩
  | append event =>
    cases hopen : session.writer? with
    | none =>
      have hact : session.act partition (.append event) = (.nothing, session) := by
        simp only [FileSession.act, hopen]
      rw [hact]
      exact ⟨last, hnothing h⟩
    | some writer =>
      rcases h.append hopen (hstorable event rfl) with
        ⟨error, -, hact⟩ | ⟨-, after, hact, hkeeps, -⟩
      · rw [hact]
        exact ⟨last, hnothing h⟩
      · rw [hact]
        exact ⟨event.offset, hkeeps⟩

end FileSession

theorem runActions_cons {σ : Type} (act : σ → LogAction → LogAnswer × σ) (session : σ)
    (action : LogAction) (actions : List LogAction) :
    runActions act session (action :: actions) =
      ((act session action).1 :: (runActions act (act session action).2 actions).1,
        (runActions act (act session action).2 actions).2) := rfl

theorem runActions_append {σ : Type} (act : σ → LogAction → LogAnswer × σ) (session : σ)
    (actions later : List LogAction) :
    runActions act session (actions ++ later) =
      ((runActions act session actions).1 ++
          (runActions act (runActions act session actions).2 later).1,
        (runActions act (runActions act session actions).2 later).2) := by
  induction actions generalizing session with
  | nil => rfl
  | cons action actions ih =>
    rw [List.cons_append, runActions_cons, ih]
    rfl

theorem accepted_append {σ : Type} (act : σ → LogAction → LogAnswer × σ) (session : σ)
    (actions later : List LogAction) (answers : List LogAnswer) :
    accepted (actions ++ later) ((runActions act session actions).1 ++ answers) =
      accepted actions (runActions act session actions).1 ++ accepted later answers := by
  induction actions generalizing session with
  | nil => rfl
  | cons action actions ih =>
    rw [runActions_cons, List.cons_append, List.cons_append, accepted, accepted, ih,
      List.append_assoc]

theorem acceptedBy?_eq_some {action : LogAction} {answer : LogAnswer} {event : Event}
    (h : acceptedBy? action answer = some event) :
    action = .append event ∧ answer = .result (.ok ()) := by
  unfold acceptedBy? at h
  split at h
  · exact ⟨congrArg LogAction.append (Option.some.inj h), rfl⟩
  · contradiction

/-- Only events that were appended are accepted. -/
theorem append_mem_of_mem_accepted {event : Event} {actions : List LogAction}
    {answers : List LogAnswer} (h : event ∈ accepted actions answers) : .append event ∈ actions := by
  induction actions generalizing answers with
  | nil => exact absurd h List.not_mem_nil
  | cons action actions ih =>
    cases answers with
    | nil => exact absurd h List.not_mem_nil
    | cons answer answers =>
      rcases List.mem_append.mp h with hevent | hevent
      · rw [Option.mem_toList] at hevent
        exact (acceptedBy?_eq_some hevent).1 ▸ List.mem_cons_self
      · exact List.mem_cons_of_mem _ (ih hevent)

/-- The offsets of events increase from null on. -/
structure IsIncreasing (events : List Event) : Prop where
  null_lt : ∀ event ∈ events, .null < event.offset
  pairwise : events.Pairwise fun event later ↦ event.offset < later.offset

theorem isIncreasing_nil : IsIncreasing [] :=
  ⟨fun _ hevent ↦ absurd hevent List.not_mem_nil, List.Pairwise.nil⟩

theorem IsIncreasing.append_singleton {events : List Event} (h : IsIncreasing events) {event : Event}
    (hnull : .null < event.offset) (hlt : ∀ other ∈ events, other.offset < event.offset) :
    IsIncreasing (events ++ [event]) := by
  refine ⟨fun other hother ↦ ?_, List.pairwise_append.mpr ⟨h.pairwise, List.pairwise_singleton _ _, ?_⟩⟩
  · rcases List.mem_append.mp hother with hother | hother
    · exact h.null_lt other hother
    · rwa [List.mem_singleton.mp hother]
  · intro other hother later hlater
    rw [List.mem_singleton.mp hlater]
    exact hlt other hother

namespace FileSession

variable {partition : PartitionId} {session : FileSession} {now : Instant} {events : List Event}
  {last : Offset}

/-- An event is only accepted behind all others. -/
theorem Keeps.lt_of_acceptedBy? (h : session.Keeps partition now events last) {action : LogAction}
    (hstorable : ∀ event, action = .append event → event.IsStorable) {event : Event}
    (haccepted : acceptedBy? action (session.act partition action).1 = some event) :
    .null < event.offset ∧ ∀ other ∈ events, other.offset < event.offset := by
  obtain ⟨rfl, hanswer⟩ := acceptedBy?_eq_some haccepted
  cases hopen : session.writer? with
  | none =>
    simp only [FileSession.act, hopen] at hanswer
    contradiction
  | some writer =>
    rcases h.append hopen (hstorable event rfl) with ⟨error, -, hact⟩ | ⟨hresult, -⟩
    · rw [hact] at hanswer
      cases hanswer
    · have hlast : last < event.offset := by
        unfold appendResult at hresult
        split at hresult
        · contradiction
        · exact Std.not_le.mp ‹_›
      obtain ⟨hnull, -, hlt⟩ := (h.last_lt_iff event.offset).mp hlast
      exact ⟨hnull, hlt⟩

/-- Actions add the events that they have made the log accept, in order, and lose nothing. -/
theorem Keeps.run (h : session.Keeps partition now events last) {actions : List LogAction}
    (hstorable : ∀ event, .append event ∈ actions → event.IsStorable) :
    ∃ last, (runActions (FileSession.act partition) session actions).2.Keeps partition now
      (events ++ (accepted actions (runActions (FileSession.act partition) session actions).1).map
        (Event.kept now)) last := by
  induction actions generalizing session events last with
  | nil => exact ⟨last, (List.append_nil events).symm ▸ h⟩
  | cons action actions ih =>
    obtain ⟨last, hstep⟩ := h.act fun event heq ↦ hstorable event (heq ▸ List.mem_cons_self)
    have hrun := ih hstep fun event hevent ↦ hstorable event (List.mem_cons_of_mem _ hevent)
    rw [runActions_cons, accepted, List.map_append]
    rwa [List.append_assoc, Option.toList_map] at hrun

/-- The offsets in a log increase. -/
theorem Keeps.isIncreasing_run (h : session.Keeps partition now events last)
    (hincreasing : IsIncreasing events) {actions : List LogAction}
    (hstorable : ∀ event, .append event ∈ actions → event.IsStorable) :
    IsIncreasing (events ++
      (accepted actions (runActions (FileSession.act partition) session actions).1).map
        (Event.kept now)) := by
  induction actions generalizing session events last with
  | nil => exact (List.append_nil events).symm ▸ hincreasing
  | cons action actions ih =>
    have hnow : ∀ event, action = .append event → event.IsStorable :=
      fun event heq ↦ hstorable event (heq ▸ List.mem_cons_self)
    obtain ⟨last, hstep⟩ := h.act hnow
    rw [runActions_cons, accepted, List.map_append, ← List.append_assoc, ← Option.toList_map]
    refine ih hstep ?_ fun event hevent ↦ hstorable event (List.mem_cons_of_mem _ hevent)
    cases haccepted : acceptedBy? action (session.act partition action).1 with
    | none => exact (List.append_nil events).symm ▸ hincreasing
    | some event =>
      obtain ⟨hnull, hlt⟩ := h.lt_of_acceptedBy? hnow haccepted
      exact hincreasing.append_singleton hnull hlt

end FileSession

end LogSequencing
