import LogSequencing.Proofs.Life.Numbers
import LogSequencing.Proofs.Life.Reopening

/-!
# Numbers handed out again

A sequencer checkpoints only what its own events left. What an earlier one left in the log without a
checkpoint, or an event that was cancelled after its commit, may come to stand before the stored offset
without being in the rows; a recovery then overlooks it (`Life.Overlooks`). As long as no recovery
begins to read at such a moment, no number is in the log twice, over any number of crashes. And from any
such moment on, a crash and one more event are enough for a number to come twice.
-/

set_option autoImplicit false
set_option relaxedAutoImplicit false

namespace LogSequencing

/-! ### As long as nothing is overlooked -/

/-- What holds as long as nothing has been overlooked. -/
structure Unrepeated (partition : PartitionId) (o : Outline) : Prop where
  confined : Confined partition o
  serves : Serves Covering o
  increasing : Increasing o.events

variable {partition : PartitionId} {o after : Outline}

theorem Unrepeated.move (h : Unrepeated partition o) (hmove : Move partition o after)
    (hread : ∀ failures checkpoint, o.recovery = .readingCheckpoint failures →
      (Checkpoint.readPartition o.rows partition).1 = .ok checkpoint →
      Covering (o.replayed checkpoint) o.events) : Unrepeated partition after := by
  refine ⟨h.confined.move hmove,
    h.serves.move agreement_covering h.confined.grounded hmove hread, ?_⟩
  refine h.increasing.move hmove fun usage hdraft ↦ ?_
  obtain ⟨-, -, -, base, hbase, hdrafted⟩ := h.serves.drafting usage hdraft
  exact ⟨base, hbase.above, hdrafted⟩

theorem Unrepeated.lapse (h : Unrepeated partition o) (hlapse : Lapse o after) :
    Unrepeated partition after := by
  refine ⟨h.confined.lapse hlapse, Serves.lapse hlapse, ?_⟩
  cases hlapse with
  | crash => exact h.increasing
  | cancelCommitted usage hdraft => exact h.increasing

/-! ### One more event -/

namespace Life

variable {β : Type} [Backend β] {life : Life β}

/-- The client has drafted an event, and the log is as it was. -/
structure Drafts (life after : Life β) (usage : Usage) : Prop where
  stage : after.stage = .serving
  draft : after.draft? = some ⟨usage, false⟩
  log : after.log = life.log
  partition : after.partition = life.partition

/-- A sequencer that is ready grants the next offsets, and then the next record number. -/
theorem exists_drafts (hserving : life.stage = .serving) (hready : life.sequencer.status = .ready)
    {workspace : WorkspaceId} {offset last : Offset}
    (hoffset : life.sequencer.counters.offset.next? = some offset)
    (hlast : (life.sequencer.counters.workspaceOffset workspace).next? = some last) :
    ∃ after, life.act (.call (.reserving workspace) .progress) = after ∧
      life.Drafts after ⟨offset, workspace, last, []⟩ ∧
      ∀ sequence id, (life.sequencer.counters.lastId sequence workspace).next? = some id →
        life.Drafts (after.act (.takeId sequence)) ⟨offset, workspace, last, [(sequence, id)]⟩ := by
  have hlast' : (Counters.workspaceOffset { life.sequencer.counters with offset }
    workspace).next? = some last := hlast
  have hreserved : life.act (.call (.reserving workspace) .progress) = { life with
      sequencer := { life.sequencer with
        workspace
        status := .eventing
        counters := { life.sequencer.counters with
          offset
          workspaceOffsets := life.sequencer.counters.workspaceOffsets.insert workspace last } }
      draft? := some ⟨⟨offset, workspace, last, []⟩, false⟩ } := by
    simp only [act, whileServing, if_pos hserving, Life.call, Sequencer.callStep?, Sequencer.reserve,
      hready, Sequencer.takeOffsets, hoffset, Sequencer.takeWorkspaceOffset, hlast']
    rfl
  refine ⟨_, hreserved, ⟨hserving, rfl, rfl, rfl⟩, fun sequence id hid ↦ ?_⟩
  have hid' : (Counters.lastId { life.sequencer.counters with
      offset
      workspaceOffsets := life.sequencer.counters.workspaceOffsets.insert workspace last }
      sequence workspace).next? = some id := by
    cases sequence <;> exact hid
  have hguard : Status.eventing = (Sequencer.idRequest sequence).status := by
    cases sequence <;> rfl
  simp only [act, whileServing, if_pos hserving, Life.takeId, Sequencer.nextId, Sequencer.guarded,
    if_pos hguard, hid']
  exact ⟨hserving, rfl, rfl, rfl⟩

/-- What has been drafted can be committed, if it follows the last event of the log. -/
theorem Drafts.commit {after : Life β} {usage : Usage} (h : life.Drafts after usage)
    (hlast : life.log.lastOffset life.partition < usage.offset) :
    (after.act (.commit usage.toEvent)).events = life.events ++ [usage.toEvent] := by
  rw [← h.log, ← h.partition] at hlast
  have happends : ∃ log, after.log.append after.partition usage.toEvent = .ok log :=
    MemoryLog.append_of_lt hlast
  obtain ⟨log, happend⟩ := happends
  have hevents : life.events = after.events := by
    rw [events, events, h.log, h.partition]
  simp only [act, whileServing, if_pos h.stage, Life.commit, h.draft, if_pos usage.toEvent_fits,
    happend, hevents]
  exact (MemoryLog.append_ok happend).2

/-- A sequencer that is ready can put the next number of any sequence into the log. -/
theorem exists_next_event (hserving : life.stage = .serving)
    (hready : life.sequencer.status = .ready) (workspace : WorkspaceId) (kind : SequenceKind)
    (hbalance : life.sequencer.counters.lastOf workspace .workspaceOffset ≤
      life.sequencer.counters.offset.val.toNat)
    (hroom : life.sequencer.counters.offset.val.toNat < 2 ^ 64 - 1)
    (hfree : life.sequencer.counters.lastOf workspace kind < 2 ^ 64 - 1)
    (hlog : life.log.lastOffset life.partition ≤ life.sequencer.counters.offset) :
    ∃ actions, ∃ usage : Usage, (life.run actions).events = life.events ++ [usage.toEvent] ∧
      usage.Takes workspace kind (life.sequencer.counters.lastOf workspace kind + 1) := by
  obtain ⟨offset, hoffset⟩ := Serial.exists_next? hroom
  rw [Counters.lastOf_workspaceOffset] at hbalance
  obtain ⟨last, hlast⟩ := Serial.exists_next? (hbalance.trans_lt hroom)
  obtain ⟨after, hreserved, hdrafts, htakes⟩ := exists_drafts hserving hready hoffset hlast
  have hfollows : life.log.lastOffset life.partition < offset := by
    have hle := UInt64.le_iff_toNat_le.mp hlog
    have hnext := Serial.toNat_of_next? hoffset
    exact UInt64.lt_iff_toNat_lt.mpr (by omega)
  have hwithout : (life.run [.call (.reserving workspace) .progress,
      .commit (Usage.toEvent ⟨offset, workspace, last, []⟩)]).events =
        life.events ++ [Usage.toEvent ⟨offset, workspace, last, []⟩] := by
    rw [← hdrafts.commit hfollows, ← hreserved]
    rfl
  rcases kind with _ | _ | sequence
  · exact ⟨_, _, hwithout, (Serial.toNat_of_next? hoffset).symm⟩
  · rw [Counters.lastOf_workspaceOffset]
    exact ⟨_, _, hwithout, rfl, (Serial.toNat_of_next? hlast).symm⟩
  · rw [Counters.lastOf_id] at hfree ⊢
    obtain ⟨id, hid⟩ := Serial.exists_next? hfree
    refine ⟨[.call (.reserving workspace) .progress, .takeId sequence,
      .commit (Usage.toEvent ⟨offset, workspace, last, [(sequence, id)]⟩)],
      ⟨offset, workspace, last, [(sequence, id)]⟩, ?_, rfl, id, List.mem_singleton_self _,
      (Serial.toNat_of_next? hid).symm⟩
    rw [← (htakes sequence id hid).commit hfollows, ← hreserved]
    rfl

end Life

/-- The events of a workspace, one more of which is committed. -/
theorem filter_append_singleton (events : List Event) (last : Event) :
    (events ++ [last]).filter (·.workspace = last.workspace) =
      events.filter (·.workspace = last.workspace) ++ [last] := by
  simp [List.filter_append]

/-- A number that is taken again is in the log twice. -/
theorem not_issuedOnce {events : List Event} {event last : Event} (hevent : event ∈ events)
    {workspace : WorkspaceId} {kind : SequenceKind} {n : Nat}
    (htakes : event.usage.Takes workspace kind n) (hlast : last.usage.Takes workspace kind n) :
    ¬ IssuedOnce (events ++ [last]) := by
  intro h
  rcases kind with _ | _ | sequence
  · have hnodup := h.offsets
    rw [List.map_append] at hnodup
    refine (List.nodup_append.mp hnodup).2.2 _ (List.mem_map_of_mem hevent) _
      (List.mem_singleton_self _) (Serial.eq_of_toNat_eq ?_)
    exact Eq.trans (Eq.symm htakes) hlast
  · obtain ⟨hworkspace, hnumber⟩ := htakes
    obtain ⟨rfl, hlastNumber⟩ := hlast
    have hnodup := h.workspaceOffsets last.workspace
    rw [filter_append_singleton, List.map_append] at hnodup
    refine (List.nodup_append.mp hnodup).2.2 _ (List.mem_map_of_mem
      (List.mem_filter.mpr ⟨hevent, decide_eq_true hworkspace⟩)) _
      (List.mem_singleton_self _) (Serial.eq_of_toNat_eq ?_)
    exact hnumber.symm.trans hlastNumber
  · obtain ⟨hworkspace, id, hid, hnumber⟩ := htakes
    obtain ⟨rfl, lastId, hlastId, hlastNumber⟩ := hlast
    have hnodup := h.ids last.workspace
    rw [filter_append_singleton, List.flatMap_append, List.flatMap_singleton] at hnodup
    refine (List.nodup_append.mp hnodup).2.2 (sequence, id) (List.mem_flatMap.mpr
      ⟨event, List.mem_filter.mpr ⟨hevent, decide_eq_true hworkspace⟩, hid⟩) _ hlastId ?_
    rw [Serial.eq_of_toNat_eq (hnumber.symm.trans hlastNumber)]

/-! ### Recoveries that overlook something -/

theorem MemoryLog.lastOffset_le (log : MemoryLog) (partition : PartitionId) :
    (log.lastOffset partition).val.toNat ≤ (observed (log.events partition)).offset.val.toNat := by
  unfold lastOffset
  cases hlast : (log.events partition).getLast? with
  | none => exact Nat.zero_le _
  | some event => exact Counters.offset_le_observeAll .empty (List.mem_of_getLast? hlast)

namespace Life

variable {β : Type} [Backend β] {life : Life β}

/-- A recovery that begins to read now misses a number in the log. -/
def Overlooks (life : Life β) : Prop :=
  ∃ counters, life.recovered = .ok counters ∧ ¬ (observed life.events).Below counters

variable [LawfulBackend β]

/-- What is overlooked was taken by an event that stands in the log before the stored offset, and
neither the rows nor an event from the stored offset on know of it. -/
theorem overlooks_iff {checkpoint : Counters}
    (hstores : Checkpoint.Stores life.store.rows life.partition checkpoint) :
    life.Overlooks ↔ ∃ event ∈ life.events, event.offset < checkpoint.offset ∧
      ∃ workspace kind n, event.usage.Takes workspace kind n ∧
        (life.outline.replayed checkpoint).lastOf workspace kind < n := by
  have hrecovered := recovered_eq hstores
  constructor
  · rintro ⟨counters, hcounters, hmissing⟩
    obtain rfl := Except.ok.inj (hrecovered.symm.trans hcounters)
    by_contra hnone
    refine hmissing fun workspace kind ↦ (Counters.lastOf_observeAll_le_iff ..).mpr ⟨?_, ?_⟩
    · rw [Counters.lastOf_empty]
      exact Nat.zero_le _
    · intro event hevent n htakes
      by_cases hvisited : checkpoint.offset ≤ event.offset
      · exact Counters.taken_le_observeAll _
          (List.mem_filter.mpr ⟨hevent, decide_eq_true hvisited⟩) htakes
      · by_contra hgreater
        exact hnone ⟨event, hevent, UInt64.not_le.mp hvisited, workspace, kind, n, htakes,
          Nat.lt_of_not_le hgreater⟩
  · rintro ⟨event, hevent, -, workspace, kind, n, htakes, hless⟩
    refine ⟨_, hrecovered, fun hbelow ↦ ?_⟩
    have hknown := Counters.taken_le_observeAll .empty hevent htakes
    exact absurd (hknown.trans (hbelow workspace kind)) (Nat.not_le_of_lt hless)

/-- Unless something is overlooked, events can be built on what a recovery comes to. -/
theorem covering_of_not_overlooks (h : Confined life.partition life.outline)
    (hsafe : ¬ life.Overlooks) {checkpoint : Counters}
    (hread : (Checkpoint.readPartition life.outline.rows life.partition).1 = .ok checkpoint) :
    Covering (life.outline.replayed checkpoint) life.outline.events := by
  have hbelow := h.read hread
  obtain ⟨stored, hstores, -⟩ := h.stored
  rw [hstores.readPartition_eq] at hread
  obtain rfl := Except.ok.inj hread
  refine ⟨bounded_replayed hbelow, ?_⟩
  by_contra hmissing
  exact hsafe ⟨_, recovered_eq hstores, hmissing⟩

/-- Where something is overlooked, the number after the last one known is in the log already. -/
theorem Overlooks.exists_event (h : life.Overlooks)
    (hconfined : Confined life.partition life.outline) :
    ∃ counters, life.recovered = .ok counters ∧ Bounded counters life.events ∧
      ∃ workspace kind, counters.lastOf workspace kind < 2 ^ 64 - 1 ∧
        ∃ event ∈ life.events,
          event.usage.Takes workspace kind (counters.lastOf workspace kind + 1) := by
  obtain ⟨counters, hrecovered, hmissing⟩ := h
  have hbounded : Bounded counters life.events := by
    obtain ⟨stored, hstores, hbelow⟩ := hconfined.stored
    obtain rfl := Except.ok.inj ((recovered_eq hstores).symm.trans hrecovered)
    exact bounded_replayed hbelow
  obtain ⟨workspace, kind, hmissed⟩ : ∃ workspace kind, counters.lastOf workspace kind <
      (observed life.events).lastOf workspace kind := by
    by_contra hnone
    exact hmissing fun workspace kind ↦ Nat.le_of_not_lt fun hlt ↦ hnone ⟨workspace, kind, hlt⟩
  have hkind : kind ≠ .offset := by
    rintro rfl
    exact absurd hbounded.offset_le (Nat.not_le_of_lt hmissed)
  exact ⟨counters, hrecovered, hbounded, workspace, kind,
    Nat.lt_of_lt_of_le hmissed (Nat.le_pred_of_lt (UInt64.toNat_lt _)),
    hconfined.grounded.dense workspace kind _ hkind (Nat.succ_pos _) hmissed⟩

/-- What is overlooked comes again with the next event, as long as the log has room for one. -/
theorem Overlooks.reissue (h : life.Overlooks) (hconfined : Confined life.partition life.outline)
    (hroom : (observed life.events).offset ≠ .last) (config : Config) :
    ∃ actions event, (life.run (reopening config ++ actions)).events = life.events ++ [event] ∧
      ¬ IssuedOnce (life.events ++ [event]) := by
  obtain ⟨counters, hrecovered, hbounded, workspace, kind, hfree, event, hevent, htakes⟩ :=
    h.exists_event hconfined
  -- A new sequencer takes the last number it knows of for the last one there is.
  obtain ⟨store, log, hlog, hreopened⟩ := run_reopening hrecovered config
  have hevents : log.events life.partition = life.events := by
    rw [events, MemoryLog.events, MemoryLog.events, hlog]
  have hlastOffset : log.lastOffset life.partition ≤ counters.offset := by
    have hle := log.lastOffset_le life.partition
    rw [hevents] at hle
    exact UInt64.le_iff_toNat_le.mpr (hle.trans hbounded.offset_le)
  have hoffset : counters.offset.val.toNat < 2 ^ 64 - 1 :=
    Nat.lt_of_le_of_lt (hbounded.below .null .offset) (Serial.lt_of_ne_last hroom)
  have hbalance := hbounded.balance hconfined.grounded workspace
  have hnext : ∃ actions, ∃ usage : Usage,
      ((life.reopened config store log counters).run actions).events =
        log.events life.partition ++ [usage.toEvent] ∧
      usage.Takes workspace kind (counters.lastOf workspace kind + 1) :=
    exists_next_event rfl rfl workspace kind hbalance hoffset hfree hlastOffset
  obtain ⟨actions, usage, happended, htaken⟩ := hnext
  rw [← usage.usage_toEvent] at htaken
  refine ⟨actions, usage.toEvent, ?_, not_issuedOnce hevent htakes htaken⟩
  rw [run_append, hreopened, happended, hevents]

/-! ### Any number of lifetimes -/

/-- A recovery is about to read the checkpoint. -/
def IsReading (life : Life β) : Bool :=
  match life.sequencer.recovery with
  | .readingCheckpoint _ => true
  | _ => false

theorem unrepeated_start {store : Faulty β} {log : MemoryLog} {partition : PartitionId}
    (hstore : Checkpoint.Stores store.rows partition .empty) (hlog : log.events partition = [])
    (config : Config) : Unrepeated partition (start store log partition config).outline := by
  have hevents : (start store log partition config).outline.events = [] := hlog
  exact ⟨confined_start hstore hlog config, serves_between rfl nofun nofun nofun nofun,
    hevents ▸ increasing_nil⟩

/-- One action more. -/
theorem Sound.act_unrepeated (h : life.Sound) (hlife : Unrepeated life.partition life.outline)
    (hsafe : life.IsReading → ¬ life.Overlooks) (action : Action) :
    (life.act action).Sound ∧
      Unrepeated (life.act action).partition (life.act action).outline := by
  have hfollows : ∀ {after : Life β}, Follows life after →
      after.Sound ∧ Unrepeated after.partition after.outline := by
    rintro after ⟨hpartition, hsound, hmove⟩
    refine ⟨hsound, hpartition ▸ hlife.move hmove fun failures checkpoint hrecovery hread ↦ ?_⟩
    have hreading : life.IsReading = true := by
      rw [IsReading, show life.sequencer.recovery = _ from hrecovery]
    exact covering_of_not_overlooks hlife.confined (hsafe hreading) hread
  by_cases horderly : action.IsOrderly
  · exact hfollows (h.act_moves horderly)
  · rcases h.act_lapses horderly with hmoves | ⟨hpartition, hsound, hlapse⟩
    · exact hfollows hmoves
    · exact ⟨hsound, hpartition ▸ hlife.lapse hlapse⟩

/-- A run in which no recovery overlooks anything. -/
theorem run_unrepeated {actions : List Action} (h : life.Sound)
    (hlife : Unrepeated life.partition life.outline)
    (hsafe : ∀ before rest, actions = before ++ rest → (life.run before).IsReading →
      ¬ (life.run before).Overlooks) :
    Unrepeated (life.run actions).partition (life.run actions).outline := by
  induction actions generalizing life with
  | nil => exact hlife
  | cons action actions ih =>
    obtain ⟨hsound, hnext⟩ := h.act_unrepeated hlife (hsafe [] (action :: actions) rfl) action
    refine ih hsound hnext fun before rest hactions ↦ ?_
    exact hsafe (action :: before) rest (congrArg (action :: ·) hactions)

/-- **Numbers handed out once.** Over any number of lifetimes, however they end, no number is in the
log twice unless a recovery has begun to read at a moment when it overlooked something. At any such
moment a crash, a recovery and one more event bring a number into the log twice, as long as there is
room for an event. -/
theorem run_issuedOnce {store : Faulty β} {log : MemoryLog} {partition : PartitionId}
    (hstore : Checkpoint.Stores store.rows partition .empty) (hlog : log.events partition = [])
    (config : Config) (actions : List Action) :
    ((∀ before rest, actions = before ++ rest →
        ((start store log partition config).run before).IsReading →
        ¬ ((start store log partition config).run before).Overlooks) →
      IssuedOnce ((start store log partition config).run actions).events) ∧
    (((start store log partition config).run actions).Overlooks →
      (observed ((start store log partition config).run actions).events).offset ≠ .last →
      ∀ other, ∃ more event,
        ((start store log partition config).run (actions ++ reopening other ++ more)).events =
          ((start store log partition config).run actions).events ++ [event] ∧
        ¬ IssuedOnce (((start store log partition config).run actions).events ++ [event])) := by
  have hsound := sound_start store log partition config
  constructor
  · intro hsafe
    have hrun := run_unrepeated hsound (unrepeated_start hstore hlog config) hsafe
    exact hrun.increasing.issuedOnce hrun.confined.grounded
  · intro hoverlooks hroom other
    obtain ⟨hpartition, -, hconfined⟩ :=
      hsound.run_confined (confined_start hstore hlog config) actions
    obtain ⟨more, event, hevents, htwice⟩ :=
      hoverlooks.reissue (hpartition ▸ hconfined) hroom other
    refine ⟨more, event, ?_, htwice⟩
    rw [List.append_assoc, run_append]
    exact hevents

/-- A crash before an event is checkpointed, and then an event of another workspace that is. -/
def forgetful : List Action :=
  loading ++ building firstUsage ++ reopening blank.sequencer.config ++
    building otherUsage ++ [.work, .work]

/-- The same, but both events are of one workspace. -/
def mindful : List Action :=
  loading ++ building firstUsage ++ reopening blank.sequencer.config ++
    building ⟨⟨2⟩, ⟨10⟩, ⟨2⟩, []⟩ ++ [.work, .work] ++ reopening blank.sequencer.config

theorem forgetful_overlooks : (blank.run forgetful).Overlooks := by
  have hknown : (blank.run forgetful).recovered.toOption.map (·.lastOf ⟨10⟩ .workspaceOffset) =
      some 0 := by decide +kernel
  have htaken : (observed (blank.run forgetful).events).lastOf ⟨10⟩ .workspaceOffset = 1 := by
    decide +kernel
  cases hrecovered : (blank.run forgetful).recovered with
  | error error => exact nomatch hrecovered ▸ hknown
  | ok counters =>
    refine ⟨counters, hrecovered, fun hbelow ↦ ?_⟩
    have hzero : counters.lastOf ⟨10⟩ .workspaceOffset = 0 := by
      rw [hrecovered] at hknown
      exact Option.some.inj hknown
    have hle := hbelow ⟨10⟩ .workspaceOffset
    omega

theorem mindful_overlooks_nothing (before rest : List Action) (h : mindful = before ++ rest)
    (hreading : (blank.run before).IsReading) : ¬ (blank.run before).Overlooks := by
  have hknown : ∀ n ∈ List.range (mindful.length + 1), (blank.run (mindful.take n)).IsReading →
      (blank.run (mindful.take n)).recovered.toOption =
        some (observed (blank.run (mindful.take n)).events) := by decide +kernel
  have hbefore : mindful.take before.length = before := by rw [h, List.take_left]
  have hlength : before.length ∈ List.range (mindful.length + 1) := by
    rw [List.mem_range, h, List.length_append]
    omega
  have hrecovers := hknown before.length hlength
  rw [hbefore] at hrecovers
  rintro ⟨counters, hrecovered, hmissing⟩
  have hsame := hrecovers hreading
  rw [hrecovered] at hsame
  obtain rfl : counters = _ := Option.some.inj hsame
  exact hmissing fun _ _ ↦ Nat.le_refl _

theorem forgetful_issues_twice :
    IssuedOnce (blank.run mindful).events ∧
      ∃ more event, (blank.run (forgetful ++ reopening blank.sequencer.config ++ more)).events =
          (blank.run forgetful).events ++ [event] ∧
        ¬ IssuedOnce ((blank.run forgetful).events ++ [event]) :=
  ⟨(run_issuedOnce stores_blank rfl _ mindful).1 mindful_overlooks_nothing,
    (run_issuedOnce stores_blank rfl _ forgetful).2 forgetful_overlooks (by decide +kernel) _⟩

end Life

end LogSequencing
