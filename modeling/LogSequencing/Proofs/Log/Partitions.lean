import LogSequencing.Proofs.Life.Serving
import LogSequencing.Proofs.Log.Agreement
import Mathlib.Logic.Function.Basic

/-!
# The logs of all partitions

What the logs under one root hold, partition by partition, while a writer may be open in one of them
(`FileLog.Holds`). Whatever is done in a partition leaves all others alone (`Keeps.elsewhere`): opening
a writer adds nothing (`Holds.openWriter`), and an event is added to its own partition unless it does
not fit into an entry (`Holds.append`). A partition is read as its events with their times cut
(`Holds.readFrom_eq`).
-/

set_option autoImplicit false
set_option relaxedAutoImplicit false

namespace LogSequencing

namespace FileSession

/-- A session keeps what it holds while other partitions change. -/
theorem Keeps.elsewhere {partition other : PartitionId} {log : FileLog} {writer? : Option Writer}
    {now : Instant} {events : List Event} {last : Offset}
    (h : Keeps other ⟨log, writer?⟩ now events last) (hne : partition ≠ other)
    (directory : Directory) :
    Keeps other ⟨log.setDirectory partition directory, writer?⟩ now events last := by
  have hsame : (log.setDirectory partition directory).directory? other = log.directory? other :=
    (getElem?_insert_eq_ite ..).trans (if_neg hne.symm)
  have hdirectory : FileSession.directory other ⟨log.setDirectory partition directory, writer?⟩ =
      FileSession.directory other ⟨log, writer?⟩ :=
    congrArg (fun directory? : Option Directory ↦ directory?.getD ∅) hsame
  refine ⟨h.unobstructed, ?_⟩
  rw [hdirectory]
  exact hsame ▸ h.exists_files

variable {partition : PartitionId} {session after : FileSession}

theorem openWriter_of_act {maxSegmentSize : Nat}
    (h : session.act partition (.openWriter maxSegmentSize) = (.result (.ok ()), after)) :
    ∃ writer directory, session.log.openWriter partition maxSegmentSize =
        (.ok writer, session.log.setDirectory partition directory) ∧
      after = ⟨session.log.setDirectory partition directory, some writer⟩ := by
  unfold act FileLog.openWriter at h
  unfold FileLog.openWriter
  cases hobstacle : session.log.obstacle? partition with
  | some error =>
    simp only [hobstacle] at h
    nomatch (Prod.mk.inj h).1
  | none =>
    cases hopen : Writer.openIn (session.log.directory? partition) session.log.now maxSegmentSize with
    | error error =>
      simp only [hobstacle, hopen] at h
      nomatch (Prod.mk.inj h).1
    | ok opened =>
      simp only [hobstacle, hopen] at h
      exact ⟨opened.1, opened.2, rfl, (Prod.mk.inj h).2.symm⟩

theorem append_of_act {writer : Writer} (hopen : session.writer? = some writer) {event : Event}
    {result : Except LogError Unit}
    (h : session.act partition (.append event) = (.result result, after)) :
    ∃ next directory, session.log.append partition writer event none =
        (result, next, session.log.setDirectory partition directory) ∧
      after = ⟨session.log.setDirectory partition directory, some next⟩ := by
  unfold act at h
  simp only [hopen] at h
  obtain ⟨hresult, hafter⟩ := Prod.mk.inj h
  exact ⟨_, _, Prod.ext (LogAnswer.result.inj hresult) rfl, hafter.symm⟩

end FileSession

namespace FileLog

/-- The logs hold these events and can take those that follow them. A writer may be open in one
partition. -/
structure Holds (log : FileLog) (partition : PartitionId) (writer? : Option Writer)
    (history : PartitionId → List Event) : Prop where
  here : ∀ now, FileSession.Keeps partition ⟨log, writer?⟩ now
    ((history partition).map (Event.kept now)) (observed (history partition)).offset
  elsewhere : ∀ other ≠ partition, ∀ now, FileSession.Keeps other ⟨log, none⟩ now
    ((history other).map (Event.kept now)) (observed (history other)).offset

variable {log : FileLog} {partition other : PartitionId} {writer? : Option Writer}
  {history : PartitionId → List Event}

theorem holds_empty (root : String) (now : Instant) (partition : PartitionId) :
    (FileLog.empty root now).Holds partition none fun _ ↦ [] where
  here later := (FileSession.agrees_empty partition root now).keeps later
  elsewhere other _ later := (FileSession.agrees_empty other root now).keeps later

/-- Once no writer is open, all partitions are alike. -/
theorem Holds.close (h : log.Holds partition writer? history) (other : PartitionId) :
    log.Holds other none history := by
  have hkeeps (any : PartitionId) (now : Instant) : FileSession.Keeps any ⟨log, none⟩ now
      ((history any).map (Event.kept now)) (observed (history any)).offset := by
    by_cases hany : any = partition
    · rw [hany]
      exact (h.here now).close
    · exact h.elsewhere any hany now
  exact ⟨hkeeps other, fun any _ ↦ hkeeps any⟩

theorem Holds.passTime (h : log.Holds partition writer? history) (now : Instant) :
    Holds { log with now } partition writer? history :=
  ⟨fun later ↦ (h.here later).passTime now, fun any hany later ↦ (h.elsewhere any hany later).passTime now⟩

theorem Holds.openWriter (h : log.Holds partition none history) (maxSegmentSize : Nat) :
    ∃ writer after, log.openWriter partition maxSegmentSize = (.ok writer, after) ∧
      after.Holds partition (some writer) history ∧ after.now = log.now := by
  obtain ⟨session, hact, -⟩ := (h.here default).openWriter maxSegmentSize
  obtain ⟨writer, directory, hopen, rfl⟩ := FileSession.openWriter_of_act hact
  refine ⟨writer, _, hopen, ⟨fun now ↦ ?_, fun any hany now ↦ ?_⟩, rfl⟩
  · obtain ⟨session, hact', hkeeps, -⟩ := (h.here now).openWriter maxSegmentSize
    obtain rfl := congrArg Prod.snd (hact.symm.trans hact')
    exact hkeeps
  · exact (h.elsewhere any hany now).elsewhere hany.symm directory

/-- An event that follows all others is added, unless it does not fit into an entry. -/
theorem Holds.append {writer : Writer} (h : log.Holds partition (some writer) history) {event : Event}
    (hstorable : event.IsStorable) (hnext : (observed (history partition)).offset < event.offset) :
    (∃ error, Entry.encode event = .error error ∧
      log.append partition writer event none = (.error error, writer, log)) ∨
    ∃ entry next after, Entry.encode event = .ok entry ∧
      log.append partition writer event none = (.ok (), next, after) ∧
      after.Holds partition (some next)
        (Function.update history partition (history partition ++ [event])) ∧
      after.now = log.now := by
  have hresult : appendResult (observed (history partition)).offset event =
      (Entry.encode event).map fun _ ↦ () := if_neg (Std.not_le.mpr hnext)
  rcases (h.here default).append rfl hstorable with
    ⟨error, hrefused, hact⟩ | ⟨hok, session, hact, -⟩
  · obtain ⟨next, directory, happend, hsame⟩ := FileSession.append_of_act rfl hact
    obtain ⟨hlog, hnextWriter⟩ := FileSession.mk.inj hsame
    obtain rfl := Option.some.inj hnextWriter
    refine Or.inl ⟨error, ?_, happend.trans (by rw [← hlog])⟩
    cases hencode : Entry.encode event with
    | error other =>
      rw [hresult, hencode] at hrefused
      exact congrArg Except.error (Except.error.inj hrefused)
    | ok entry =>
      rw [hresult, hencode] at hrefused
      nomatch hrefused
  · obtain ⟨next, directory, happend, rfl⟩ := FileSession.append_of_act rfl hact
    obtain ⟨entry, hencode⟩ : ∃ entry, Entry.encode event = .ok entry := by
      cases hencode : Entry.encode event with
      | error error =>
        rw [hresult, hencode] at hok
        nomatch hok
      | ok entry => exact ⟨entry, rfl⟩
    refine Or.inr ⟨entry, next, _, hencode, happend, ⟨fun now ↦ ?_, fun any hany now ↦ ?_⟩, rfl⟩
    · rcases (h.here now).append rfl hstorable with
        ⟨error, hrefused, -⟩ | ⟨-, session, hact', hkeeps, -⟩
      · exact absurd (hok.symm.trans hrefused) nofun
      · obtain rfl := congrArg Prod.snd (hact.symm.trans hact')
        rw [Function.update_self, observed_append_singleton,
          Counters.offset_observe_of_le (Std.le_of_lt hnext), List.map_append]
        exact hkeeps
    · rw [Function.update_of_ne hany]
      exact (h.elsewhere any hany now).elsewhere hany.symm directory

/-- A partition is read as its events from an offset on. -/
theorem Holds.readFrom_eq (h : log.Holds partition none history) (start : Offset) :
    LogSource.readFrom log partition start =
      (⟨((history partition).map (Event.kept log.now)).filter (start ≤ ·.offset), none⟩, log) := by
  have hread := (h.here log.now).read start .toTheEnd noObjection
  rw [Reading.visit_noObjection] at hread
  exact congrArg (·, log) hread

end FileLog

end LogSequencing
