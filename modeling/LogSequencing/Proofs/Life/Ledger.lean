import LogSequencing.Proofs.Life.Numbers

/-!
# Where committed events stand

In an orderly life the committed events divide by what has become of what they left (`Division`):
those whose batches landed come first, then those whose batches were given up, then the batch in
flight, the pending batch and the event in progress. Batches are given up only after a shutdown was
requested, and then at most one more batch is handed off, which may land after one that was given up
and hide it. Every move keeps the books (`Ledger.move`).
-/

set_option autoImplicit false
set_option relaxedAutoImplicit false

namespace LogSequencing

/-- The committed events by what has become of what they left. -/
structure Division where
  /-- In batches that landed before any was given up. -/
  landed : List Event
  /-- In batches that were given up. -/
  missed : List Event
  /-- In the batch that landed after one had been given up. -/
  overtaking : List Event
  /-- In the batch handed off that the worker is not yet through with. -/
  flight : List Event
  waiting : List Event
  /-- Not finished. -/
  unfinished : List Event
  /-- The batches that landed before any was given up. -/
  written : List Batch
  /-- The batches that were given up. -/
  lost : List Batch

/-- The batch of what events left that follow others, if there are any. -/
def batchesOf (done events : List Event) : List Batch :=
  if events = [] then [] else [(observed done).batchOf events]

theorem batchesOf_nil (done : List Event) : batchesOf done [] = [] := rfl

theorem batchesOf_of_ne_nil {done events : List Event} (h : events ≠ []) :
    batchesOf done events = [(observed done).batchOf events] := if_neg h

theorem ne_nil_of_batchesOf {done events : List Event} {batch : Batch}
    (h : batchesOf done events = [batch]) :
    events ≠ [] ∧ batch = (observed done).batchOf events := by
  unfold batchesOf at h
  split_ifs at h with hnil
  exact ⟨hnil, (List.head_eq_of_cons_eq h).symm⟩

theorem eq_nil_of_batchesOf {done events : List Event} (h : batchesOf done events = []) :
    events = [] := by
  unfold batchesOf at h
  split_ifs at h with hnil
  exact hnil

/-- Batches that the worker got through with in one way. -/
def ended (fate : Fate) (batches : List Batch) : List (Batch × Fate) := batches.map (·, fate)

namespace Division

/-- The counters that are stored. -/
def checkpoint (d : Division) : Counters :=
  (batchesOf (d.landed ++ d.missed) d.overtaking).foldl
    (fun counters batch ↦ batch.putRows counters) (observed d.landed)

/-- What the worker is through with. -/
def settled (d : Division) : List (Batch × Fate) :=
  ended .landed d.written ++ ended .abandoned d.lost ++
    ended .landed (batchesOf (d.landed ++ d.missed) d.overtaking)

/-- An event is open in the log as long as its draft is committed and not finished. -/
def Leaves (draft? : Option Draft) (unfinished : List Event) : Prop :=
  match draft? with
  | some ⟨usage, true⟩ => ∃ event, unfinished = [event] ∧ event.workspace = usage.workspace
  | _ => unfinished = []

end Division

/-- The books of an orderly life. -/
structure Ledger (partition : PartitionId) (o : Outline) (d : Division) : Prop where
  events : o.events =
    d.landed ++ d.missed ++ d.overtaking ++ d.flight ++ d.waiting ++ d.unfinished
  unfinished : Division.Leaves o.draft? d.unfinished
  stored : Checkpoint.Stores o.rows partition d.checkpoint
  carried : o.carried = batchesOf (d.landed ++ d.missed ++ d.overtaking) d.flight
  pending : o.pending =
    (observed (d.landed ++ d.missed ++ d.overtaking ++ d.flight)).batchOf d.waiting
  settled : o.settled = d.settled
  lost : ∀ workspace, (∃ batch ∈ d.lost, batch.Touches workspace) ↔
    ∃ event ∈ d.missed, event.workspace = workspace
  lost_eq_nil : d.missed = [] → d.lost = []
  resting : o.active = false → o.carried = []
  /-- Nothing is given up unless a shutdown has been requested, -/
  faithful : o.isStopping = false → d.missed = []
  /-- and then no more than one batch is left, -/
  oneLeft : d.missed ≠ [] → d.flight = [] ∨ d.waiting = []
  /-- which is the only one that can hide what was given up. -/
  hidden : d.overtaking ≠ [] → d.missed ≠ [] ∧ d.flight = [] ∧ d.waiting = []

variable {partition : PartitionId} {o after : Outline} {d : Division}

theorem Ledger.overtaking_eq_nil (h : Ledger partition o d)
    (hleft : d.flight ≠ [] ∨ d.waiting ≠ []) : d.overtaking = [] := by
  by_contra hne
  obtain ⟨-, hflight, hwaiting⟩ := h.hidden hne
  exact hleft.elim (· hflight) (· hwaiting)

/-- Moves of the client and of the recovery do not touch the books. -/
theorem Ledger.congr (h : Ledger partition o d) (hrows : after.rows = o.rows)
    (hevents : after.events = o.events) (hstopping : after.isStopping = o.isStopping)
    (hdraft : Division.Leaves after.draft? d.unfinished) (hpending : after.pending = o.pending)
    (hcarried : after.carried = o.carried) (hactive : after.active = o.active)
    (hsettled : after.settled = o.settled) : Ledger partition after d where
  events := hevents.trans h.events
  unfinished := hdraft
  stored := hrows ▸ h.stored
  carried := hcarried.trans h.carried
  pending := hpending.trans h.pending
  settled := hsettled.trans h.settled
  lost := h.lost
  lost_eq_nil := h.lost_eq_nil
  resting hinactive := hcarried.trans (h.resting (hactive.symm.trans hinactive))
  faithful hserving := h.faithful (hstopping.symm.trans hserving)
  oneLeft := h.oneLeft
  hidden := h.hidden

theorem Ledger.unfinished_eq_nil (h : Ledger partition o d)
    (hdraft : ∀ usage, o.draft? ≠ some ⟨usage, true⟩) : d.unfinished = [] := by
  have hleaves := h.unfinished
  rw [Division.Leaves.eq_2] at hleaves
  · exact hleaves
  · exact hdraft

theorem Ledger.commit (h : Ledger partition o d) {event : Event} {usage : Usage}
    (hdraft : o.draft? = some ⟨usage, false⟩) (hfits : event.Fits usage) :
    Ledger partition { o with events := o.events ++ [event], draft? := some ⟨usage, true⟩ }
      { d with unfinished := [event] } := by
  have hnone : d.unfinished = [] :=
    h.unfinished_eq_nil fun other hother ↦ by simp [hdraft] at hother
  refine { h with events := ?_, unfinished := ⟨event, rfl, hfits.2.1⟩ }
  simp only [h.events, hnone, List.append_nil]

/-- The event in progress joins those that wait. -/
theorem Ledger.finished (h : Ledger partition o d) (hserves : Serves Exact o) {usage : Usage}
    (hstopping : o.isStopping = false) (hdraft : o.draft? = some ⟨usage, true⟩) :
    Ledger partition o.finished { d with
      waiting := d.waiting ++ d.unfinished, unfinished := [] } ∧
      d.waiting ++ d.unfinished ≠ [] := by
  obtain ⟨-, -, hworkspace, hexact⟩ := hserves.committed usage hdraft
  have hleaves := h.unfinished
  rw [hdraft] at hleaves
  obtain ⟨event, hunfinished, hevent⟩ := hleaves
  have hmissed := h.faithful hstopping
  constructor
  · refine { h with events := ?_, unfinished := rfl, pending := ?_, oneLeft := ?_, hidden := ?_ }
    · simp only [Outline.finished, h.events, List.append_assoc, List.append_nil]
    · have hcounters : o.counters =
          (observed (d.landed ++ d.missed ++ d.overtaking ++ d.flight)).observeAll
            (d.waiting ++ [event]) := by
        rw [hexact.eq_observed, h.events, hunfinished, List.append_assoc _ d.waiting,
          observed_append]
      rw [Outline.finished, h.pending, hunfinished, Counters.batchOf_append_singleton, ← hcounters,
        hevent, hworkspace]
    · exact fun hne ↦ absurd hmissed hne
    · exact fun hne ↦ absurd hmissed (h.hidden hne).1
  · simp [hunfinished]

/-- The pending batch takes off. -/
theorem Ledger.sent (h : Ledger partition o d) (hactive : o.active = false)
    (hne : d.waiting ≠ []) :
    Ledger partition o.sent { d with flight := d.waiting, waiting := [] } := by
  have hflight : d.flight = [] := eq_nil_of_batchesOf (h.carried.symm.trans (h.resting hactive))
  have hovertaking := h.overtaking_eq_nil (Or.inr hne)
  refine { h with
    events := ?_, carried := ?_, pending := ?_, resting := nofun, oneLeft := fun _ ↦ Or.inr rfl,
    hidden := fun hother ↦ absurd hovertaking hother }
  · simp only [Outline.sent, h.events, hflight, List.append_nil]
  · rw [Outline.sent, batchesOf_of_ne_nil hne, h.pending, hflight, List.append_nil]
  · rfl

/-- As long as nothing was given up, the counters stored are those of the events that landed. -/
theorem Ledger.land_faithfully {landed flight waiting unfinished : List Event}
    {written lost : List Batch}
    (h : Ledger partition o ⟨landed, [], [], flight, waiting, unfinished, written, lost⟩)
    (hgrounded : Grounded o.events) (hne : flight ≠ []) :
    Ledger partition { o with
      rows := o.rows.insertAll
        (((observed landed).batchOf flight).rows.map (Checkpoint.storedRow partition))
      carried := []
      settled := o.settled ++ [((observed landed).batchOf flight, .landed)] }
      ⟨landed ++ flight, [], [], [], waiting, unfinished,
        written ++ [(observed landed).batchOf flight], lost⟩ := by
  have hevents := h.events
  have hpending := h.pending
  obtain rfl : lost = [] := h.lost_eq_nil rfl
  simp only [List.append_nil] at hevents hpending
  refine { h with
    events := ?_, stored := ?_, carried := rfl, pending := ?_, settled := ?_,
    resting := fun _ ↦ rfl, oneLeft := fun hmissed ↦ absurd rfl hmissed,
    hidden := fun hovertaking ↦ absurd rfl hovertaking }
  · simp only [List.append_nil, hevents]
  · have hproper : ∀ event ∈ landed ++ flight, event.usage.IsProper := fun event hevent ↦
      hgrounded.proper event (hevents ▸ List.mem_append_left _ (List.mem_append_left _ hevent))
    have hlanded : ((observed landed).batchOf flight).putRows (observed landed) =
        observed (landed ++ flight) := by
      rw [observed_append]
      exact Counters.putRows_batchOf
        (observed_tight fun event hevent ↦ hproper event (List.mem_append_left _ hevent))
        (fun event hevent ↦ hproper event (List.mem_append_right _ hevent)) hne
    have hwritten := h.stored.insertAll fun row ↦
      @Batch.isPlaced_of_mem_rows ((observed landed).batchOf flight) row
    change Checkpoint.Stores _ partition (observed (landed ++ flight))
    rw [← hlanded]
    exact hwritten
  · simp only [List.append_nil, hpending]
  · simp only [h.settled, Division.settled, ended, batchesOf_nil, List.map_nil, List.append_nil,
      List.map_append, List.map_cons]

/-- A batch that lands after others were given up is the last one. -/
theorem Ledger.overtake {landed missed flight waiting unfinished : List Event}
    {written lost : List Batch}
    (h : Ledger partition o ⟨landed, missed, [], flight, waiting, unfinished, written, lost⟩)
    (hmissed : missed ≠ []) (hne : flight ≠ []) :
    Ledger partition { o with
      rows := o.rows.insertAll
        (((observed (landed ++ missed)).batchOf flight).rows.map (Checkpoint.storedRow partition))
      carried := []
      settled := o.settled ++ [((observed (landed ++ missed)).batchOf flight, .landed)] }
      ⟨landed, missed, flight, [], waiting, unfinished, written, lost⟩ := by
  have hevents := h.events
  have hpending := h.pending
  simp only [List.append_nil] at hevents hpending
  refine { h with
    events := ?_, stored := ?_, carried := rfl, pending := ?_, settled := ?_,
    resting := fun _ ↦ rfl, oneLeft := fun _ ↦ Or.inl rfl,
    hidden := fun _ ↦ ⟨hmissed, rfl, (h.oneLeft hmissed).resolve_left hne⟩ }
  · simp only [List.append_nil, hevents]
  · have hwritten := h.stored.insertAll fun row ↦
      @Batch.isPlaced_of_mem_rows ((observed (landed ++ missed)).batchOf flight) row
    rw [Division.checkpoint, batchesOf_of_ne_nil hne]
    exact hwritten
  · simp only [List.append_nil, hpending]
  · simp only [h.settled, Division.settled, ended, batchesOf_of_ne_nil hne, batchesOf_nil, List.map_nil,
      List.append_nil, List.map_cons]

theorem Ledger.land (h : Ledger partition o d) (hgrounded : Grounded o.events) {batch : Batch}
    (hcarried : o.carried = [batch]) :
    ∃ d, Ledger partition { o with
      rows := o.rows.insertAll (batch.rows.map (Checkpoint.storedRow partition))
      carried := []
      settled := o.settled ++ [(batch, .landed)] } d := by
  obtain ⟨hne, rfl⟩ := ne_nil_of_batchesOf (h.carried.symm.trans hcarried)
  obtain ⟨landed, missed, overtaking, flight, waiting, unfinished, written, lost⟩ := d
  obtain rfl : overtaking = [] := h.overtaking_eq_nil (Or.inl hne)
  simp only [List.append_nil]
  by_cases hmissed : missed = []
  · subst hmissed
    simp only [List.append_nil]
    exact ⟨_, h.land_faithfully hgrounded hne⟩
  · exact ⟨_, h.overtake hmissed hne⟩

/-- The batch in flight is given up. -/
theorem Ledger.abandon (h : Ledger partition o d) (hstopping : o.isStopping = true) {batch : Batch}
    (hcarried : o.carried = [batch]) :
    ∃ d, Ledger partition { o with
      carried := [], settled := o.settled ++ [(batch, .abandoned)] } d := by
  obtain ⟨hne, rfl⟩ := ne_nil_of_batchesOf (h.carried.symm.trans hcarried)
  obtain ⟨landed, missed, overtaking, flight, waiting, unfinished, written, lost⟩ := d
  obtain rfl : overtaking = [] := h.overtaking_eq_nil (Or.inl hne)
  have hevents := h.events
  have hpending := h.pending
  simp only [List.append_nil] at hevents hpending
  refine ⟨⟨landed, missed ++ flight, [], [], waiting, unfinished, written,
    lost ++ [(observed (landed ++ missed)).batchOf flight]⟩, { h with
    events := ?_, carried := rfl, pending := ?_, settled := ?_, lost := fun workspace ↦ ?_,
    lost_eq_nil := fun hnil ↦ absurd (List.append_eq_nil_iff.mp hnil).2 hne,
    resting := fun _ ↦ rfl, faithful := fun hserving ↦ (nomatch hstopping.symm.trans hserving),
    oneLeft := fun _ ↦ Or.inl rfl, hidden := fun hovertaking ↦ absurd rfl hovertaking }⟩
  · simp only [List.append_nil, hevents, List.append_assoc]
  · simp only [List.append_nil, hpending, List.append_assoc]
  · simp only [h.settled, Division.settled, ended, batchesOf_nil, List.map_nil, List.append_nil,
      List.map_append, List.map_cons, List.append_assoc]
  · have hlost := h.lost workspace
    have htouches := Counters.touches_batchOf_iff (observed (landed ++ missed)) flight workspace
    simp only [List.mem_append, List.mem_singleton, or_and_right, exists_or, exists_eq_left,
      htouches] at hlost ⊢
    rw [hlost]

/-- Every move keeps the books. -/
theorem Ledger.move (h : Ledger partition o d) (hgrounded : Grounded o.events)
    (hserves : o.isStopping = false → Serves Exact o) (hmove : Move partition o after) :
    ∃ d, Ledger partition after d := by
  have huncommitted : ∀ {draft? : Option Draft}, (∀ usage, o.draft? ≠ some ⟨usage, true⟩) →
      (∀ usage, draft? ≠ some ⟨usage, true⟩) → Division.Leaves draft? d.unfinished := by
    intro draft? hold hnew
    rw [h.unfinished_eq_nil hold, Division.Leaves.eq_2]
    exact hnew
  cases hmove with
  | reserve workspace offset last hstopping hstatus hoffset hlast =>
    have hdraft := ((hserves hstopping).ready hstatus).1
    exact ⟨d, h.congr rfl rfl rfl (huncommitted (by simp [hdraft]) (by simp)) rfl rfl rfl rfl⟩
  | takeId sequence id usage hdraft hid =>
    exact ⟨d, h.congr rfl rfl rfl (huncommitted (by simp [hdraft]) (by simp)) rfl rfl rfl rfl⟩
  | commit event usage hdraft hfits => exact ⟨_, h.commit hdraft hfits⟩
  | finish usage hstopping hdraft => exact ⟨_, (h.finished (hserves hstopping) hstopping hdraft).1⟩
  | finishAndSend usage hstopping hdraft hactive =>
    obtain ⟨hfinished, hne⟩ := h.finished (hserves hstopping) hstopping hdraft
    exact ⟨_, hfinished.sent hactive hne⟩
  | cancel usage hdraft =>
    exact ⟨d, h.congr rfl rfl rfl (huncommitted (by simp [hdraft]) (by simp)) rfl rfl rfl rfl⟩
  | land batch hcarried => exact h.land hgrounded hcarried
  | abandon batch hstopping hcarried => exact h.abandon hstopping hcarried
  | lower hcarried => exact ⟨d, { h with resting := fun _ ↦ hcarried }⟩
  | stop hstatus => exact ⟨d, { h with faithful := nofun }⟩
  | send hstopping hcount hactive =>
    refine ⟨_, h.sent hactive fun hwaiting ↦ hcount ?_⟩
    rw [h.pending, hwaiting]
    rfl
  | _ => exact ⟨d, h.congr rfl rfl rfl h.unfinished rfl rfl rfl rfl⟩

end LogSequencing
