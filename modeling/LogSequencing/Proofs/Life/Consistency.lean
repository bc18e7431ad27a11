import LogSequencing.Proofs.Life.Overtaking
import LogSequencing.Proofs.Life.Reopening

/-!
# What a recovery finds

In an orderly life without a shutdown the rows are always the counters of some first part of the log,
and a recovery always comes to the counters of the whole log. A shutdown can
give up a batch and write a later one. A recovery then still comes to the counters of the whole log,
unless the batch given up touches a workspace that the later one does not.
-/

set_option autoImplicit false
set_option relaxedAutoImplicit false

namespace LogSequencing

/-! ### Replays -/

/-- Events follow the last offset of what comes before them in the log. -/
theorem offset_le_of_append {first second : List Event} (h : Grounded (first ++ second))
    {event : Event} (hevent : event ∈ second) :
    (observed first).offset.val.toNat ≤ event.offset.val.toNat := by
  refine (Counters.lastOf_observeAll_le_iff .empty first .null .offset _).mpr
    ⟨Nat.zero_le _, fun earlier hearlier taken htakes ↦ ?_⟩
  obtain rfl : taken = earlier.offset.val.toNat := htakes
  exact Nat.le_of_lt ((List.pairwise_append.mp h.ascending).2.2 earlier hearlier event hevent)

/-- A replay on the counters of a first part of the log comes to those of the whole log. -/
theorem exact_replayed {o : Outline} {first second : List Event}
    (hevents : o.events = first ++ second) (hgrounded : Grounded o.events) :
    Exact (o.replayed (observed first)) o.events := by
  have hproper : ∀ event ∈ first, event.usage.IsProper := fun event hevent ↦
    hgrounded.proper event (hevents ▸ List.mem_append_left _ hevent)
  have htight : (o.replayed (observed first)).IsTight :=
    (observed_tight hproper).observeAll fun event hevent ↦
      hgrounded.proper event (List.mem_filter.mp hevent).1
  have hbounded : Bounded (o.replayed (observed first)) o.events :=
    bounded_replayed (hevents ▸ observed_below_append first second)
  refine ⟨htight.ext (observed_tight hgrounded.proper) fun workspace kind ↦ ?_, htight⟩
  refine Nat.le_antisymm (hbounded.below workspace kind)
    ((Counters.lastOf_observeAll_le_iff ..).mpr ⟨?_, fun event hevent taken htakes ↦ ?_⟩)
  · rw [Counters.lastOf_empty]
    exact Nat.zero_le _
  · rw [hevents] at hevent hgrounded
    rcases List.mem_append.mp hevent with hearly | hlate
    · exact (Counters.taken_le_observeAll _ hearly htakes).trans
        (Counters.below_observeAll _ _ workspace kind)
    · refine Counters.taken_le_observeAll _ (List.mem_filter.mpr ⟨hevents ▸ hevent, ?_⟩) htakes
      exact decide_eq_true (UInt64.le_iff_toNat_le.mpr (offset_le_of_append hgrounded hlate))

/-! ### Rows that are a first part of the log -/

/-- The rows are the counters of a first part of the log, and events are built on those of the whole
log. -/
structure Faithful (partition : PartitionId) (o : Outline) : Prop where
  grounded : Grounded o.events
  serves : Serves Exact o
  stored : ∃ done rest, o.events = done ++ rest ∧
    Checkpoint.Stores o.rows partition (observed done)

variable {partition : PartitionId} {o after : Outline}

theorem Faithful.serves_move (h : Faithful partition o) (hmove : Move partition o after) :
    Serves Exact after := by
  refine h.serves.move agreement_exact h.grounded hmove fun failures checkpoint _ hread ↦ ?_
  obtain ⟨done, rest, hevents, hstores⟩ := h.stored
  rw [hstores.readPartition_eq] at hread
  obtain rfl := Except.ok.inj hread
  exact exact_replayed hevents h.grounded

/-- The rows stay as they are until a batch lands. -/
theorem Faithful.move (h : Faithful partition o) (hmove : Move partition o after)
    (hsettled : after.settled = []) : Faithful partition after := by
  have hserves := h.serves_move hmove
  cases hmove with
  | commit event usage hdraft hfits =>
    obtain ⟨-, -, -, base, hbase, hdrafted⟩ := h.serves.drafting usage hdraft
    obtain ⟨done, rest, hevents, hstores⟩ := h.stored
    refine ⟨h.grounded.commit hbase.covering.toBounded hdrafted hfits, hserves,
      done, rest ++ [event], ?_, hstores⟩
    simp only [hevents, List.append_assoc]
  | land batch hcarried => exact absurd hsettled (by simp)
  | _ => exact ⟨h.grounded, hserves, h.stored⟩

/-! ### Orderly lives -/

/-- What holds of orderly lives. -/
structure Orderly (partition : PartitionId) (o : Outline) : Prop where
  confined : Confined partition o
  serves : o.isStopping = false → Serves Exact o
  increasing : Increasing o.events
  ledger : ∃ d, Ledger partition o d

theorem Move.isStopping (hmove : Move partition o after) (hserving : after.isStopping = false) :
    o.isStopping = false := by
  cases hmove with
  | stop hstatus => exact nomatch hserving
  | _ => exact hserving

/-- What the worker is through with is never forgotten. -/
theorem Move.settled (hmove : Move partition o after) (hnone : after.settled = []) :
    o.settled = [] := by
  cases hmove with
  | land batch hcarried => exact absurd hnone (by simp)
  | abandon batch hstopping hcarried => exact absurd hnone (by simp)
  | _ => exact hnone

/-- As long as no shutdown was requested, the rows are the counters of a first part of the log. -/
theorem Orderly.faithful (h : Orderly partition o) (hserving : o.isStopping = false) :
    Faithful partition o := by
  obtain ⟨d, hledger⟩ := h.ledger
  have hmissed := hledger.faithful hserving
  have hovertaking : d.overtaking = [] := by
    by_contra hne
    exact (hledger.hidden hne).1 hmissed
  refine ⟨h.confined.grounded, h.serves hserving, d.landed,
    d.flight ++ d.waiting ++ d.unfinished, ?_, ?_⟩
  · rw [hledger.events, hmissed, hovertaking]
    simp only [List.append_nil, List.append_assoc]
  · have hstored := hledger.stored
    rw [Division.checkpoint, hovertaking] at hstored
    exact hstored

theorem Orderly.move (h : Orderly partition o) (hmove : Move partition o after) :
    Orderly partition after := by
  obtain ⟨d, hledger⟩ := h.ledger
  refine ⟨h.confined.move hmove, fun hserving ↦ ?_, ?_,
    hledger.move h.confined.grounded h.serves hmove⟩
  · exact (h.faithful (hmove.isStopping hserving)).serves_move hmove
  · refine h.increasing.move hmove fun usage hdraft ↦ ?_
    have hserving : o.isStopping = false := by
      by_contra hstopping
      have hquiet := h.confined.serves.quiet (eq_true_of_ne_false hstopping)
      simp [hdraft] at hquiet
    obtain ⟨-, -, -, base, hbase, hdrafted⟩ := (h.serves hserving).drafting usage hdraft
    exact ⟨base, hbase.covering.above, hdrafted⟩

/-- As long as no batch has overtaken another one, a recovery comes to the counters of the log. -/
theorem Ledger.recovers {d : Division} (h : Ledger partition o d) (hgrounded : Grounded o.events)
    (hnone : d.overtaking = []) :
    o.replayed d.checkpoint = observed o.events ∧ ¬ Hides o.settled := by
  have hevents : o.events = d.landed ++ (d.missed ++ d.flight ++ d.waiting ++ d.unfinished) := by
    rw [h.events, hnone]
    simp only [List.append_nil, List.append_assoc]
  have hstored : d.checkpoint = observed d.landed := by
    rw [Division.checkpoint, hnone]
    rfl
  have hsettled : d.settled = ended .landed d.written ++ ended .abandoned d.lost := by
    rw [Division.settled, hnone]
    exact List.append_nil _
  rw [hstored, h.settled, hsettled]
  exact ⟨(exact_replayed hevents hgrounded).eq_observed, not_hides_of_first d.written d.lost⟩

/-- If one has, it depends on what was given up. -/
theorem Ledger.recovers_iff {d : Division} (h : Ledger partition o d) (hgrounded : Grounded o.events)
    (hincreasing : Increasing o.events) (hquiet : o.isStopping = true → o.draft? = none)
    (hne : d.overtaking ≠ []) :
    o.replayed d.checkpoint = observed o.events ↔ ¬ Hides o.settled := by
  obtain ⟨hmissed, hflight, hwaiting⟩ := h.hidden hne
  have hdraft : o.draft? = none :=
    hquiet (eq_true_of_ne_false fun hserving ↦ hmissed (h.faithful hserving))
  have hunfinished := h.unfinished_eq_nil (by simp [hdraft])
  have hevents : o.events = d.landed ++ d.missed ++ d.overtaking := by
    rw [h.events, hflight, hwaiting, hunfinished]
    simp only [List.append_nil]
  have hstored : d.checkpoint = overtaken d.landed d.missed d.overtaking := by
    rw [Division.checkpoint, batchesOf_of_ne_nil hne]
    rfl
  have hsettled : d.settled = ended .landed d.written ++ ended .abandoned d.lost ++
      [((observed (d.landed ++ d.missed)).batchOf d.overtaking, .landed)] := by
    rw [Division.settled, batchesOf_of_ne_nil hne]
    rfl
  rw [hstored, h.settled, hsettled, hides_last_iff,
    replayed_overtaken_iff hevents hgrounded hincreasing hne]
  simp only [Counters.touches_batchOf_iff]
  constructor
  · rintro htouched ⟨batch, hbatch, workspace, htouches, hmisses⟩
    obtain ⟨event, hevent, rfl⟩ := (h.lost workspace).mp ⟨batch, hbatch, htouches⟩
    exact hmisses (htouched event hevent)
  · intro hshown event hevent
    by_contra hmisses
    obtain ⟨batch, hbatch, htouches⟩ := (h.lost event.workspace).mpr ⟨event, hevent, rfl⟩
    exact hshown ⟨batch, hbatch, event.workspace, htouches, hmisses⟩

/-- A recovery comes to the counters of the log, unless something was given up and is hidden. -/
theorem Orderly.replayed_iff (h : Orderly partition o) :
    ∃ checkpoint, Checkpoint.Stores o.rows partition checkpoint ∧
      (o.replayed checkpoint = observed o.events ↔ ¬ Hides o.settled) := by
  obtain ⟨d, hledger⟩ := h.ledger
  have hgrounded := h.confined.grounded
  refine ⟨d.checkpoint, hledger.stored, ?_⟩
  by_cases hnone : d.overtaking = []
  · obtain ⟨hreplayed, hshown⟩ := hledger.recovers hgrounded hnone
    exact iff_of_true hreplayed hshown
  · exact hledger.recovers_iff hgrounded h.increasing h.confined.serves.quiet hnone

namespace Life

variable {β : Type} [Backend β] [LawfulBackend β] {life : Life β}

theorem orderly_start {store : Faulty β} {log : MemoryLog} {partition : PartitionId}
    (hstore : Checkpoint.Stores store.rows partition .empty) (hlog : log.events partition = [])
    (config : Config) : Orderly partition (start store log partition config).outline := by
  have hevents : (start store log partition config).outline.events = [] := hlog
  refine ⟨confined_start hstore hlog config, fun _ ↦ serves_between rfl nofun nofun nofun nofun,
    hevents ▸ increasing_nil, ⟨[], [], [], [], [], [], [], []⟩, ?_⟩
  exact {
    events := hlog
    unfinished := rfl
    stored := hstore
    carried := rfl
    pending := rfl
    settled := rfl
    lost := fun _ ↦ by simp
    lost_eq_nil := fun _ ↦ rfl
    resting := fun _ ↦ rfl
    faithful := fun _ ↦ rfl
    oneLeft := nofun
    hidden := nofun }

/-- An orderly run from a fresh start. -/
theorem run_orderly {store : Faulty β} {log : MemoryLog} {partition : PartitionId}
    (hstore : Checkpoint.Stores store.rows partition .empty) (hlog : log.events partition = [])
    (config : Config) {actions : List Action} (horderly : ∀ action ∈ actions, action.IsOrderly) :
    ((start store log partition config).run actions).Sound ∧
      Orderly ((start store log partition config).run actions).partition
        ((start store log partition config).run actions).outline := by
  obtain ⟨hpartition, hsound, horderlyRun⟩ := (sound_start store log partition config).run
    (orderly_start hstore hlog config) actions Orderly.move
    fun ⟨action, haction, hdisorderly⟩ ↦ absurd (horderly action haction) hdisorderly
  rw [hpartition]
  exact ⟨hsound, horderlyRun⟩

/-! ### Without a shutdown -/

/-- What holds at every moment of an orderly life without a shutdown. -/
structure Consistent (life : Life β) : Prop where
  /-- The rows are the counters of a first part of the log. -/
  stored : ∃ done rest, life.events = done ++ rest ∧
    Checkpoint.Stores life.store.rows life.partition (observed done)
  /-- A recovery that meets no failure comes to the counters of the log. -/
  recovered : life.recovered = .ok (observed life.events)
  /-- A recovery in progress never comes to anything else. -/
  installing : ∀ counters, life.sequencer.recovery = .installing counters →
    counters = observed life.events
  ready : life.sequencer.status = .ready → life.sequencer.counters = observed life.events

theorem consistent_of_faithful (h : Faithful life.partition life.outline) : life.Consistent := by
  obtain ⟨done, rest, hevents, hstores⟩ := h.stored
  exact {
    stored := ⟨done, rest, hevents, hstores⟩
    recovered := by
      rw [recovered_eq hstores, (exact_replayed hevents h.grounded).eq_observed]
      rfl
    installing := fun counters hinstalling ↦ (h.serves.installing counters hinstalling).eq_observed
    ready := fun hready ↦ (h.serves.ready hready).2.2.eq_observed }

/-- A new sequencer serves on as long as it has not written a batch of its own. -/
theorem consistent_of_crash (h : Faithful life.partition life.outline) (config : Config)
    {actions : List Action} (horderly : ∀ action ∈ actions, action.IsOrderly)
    (hsettled : ((life.crash config).run actions).settled = []) :
    ((life.crash config).run actions).Consistent := by
  have hstart : (life.crash config).outline.settled = [] →
      Faithful (life.crash config).partition (life.crash config).outline := fun _ ↦
    ⟨h.grounded, serves_between rfl nofun nofun nofun nofun, h.stored⟩
  obtain ⟨hpartition, -, hfaithful⟩ := (sound_crash life config).run
    (P := fun o ↦ o.settled = [] → Faithful (life.crash config).partition o) hstart actions
    (fun hbefore hmove hnone ↦ (hbefore (hmove.settled hnone)).move hmove hnone)
    fun ⟨action, haction, hdisorderly⟩ ↦ absurd (horderly action haction) hdisorderly
  exact consistent_of_faithful (hpartition ▸ hfaithful hsettled)

omit [Backend β] [LawfulBackend β] in
theorem stage_letGo (life : Life β) (result : Except Violation Unit × Sequencer) :
    (life.letGo result).stage = life.stage := by
  obtain ⟨_ | _, _⟩ := result <;> rfl

omit [LawfulBackend β] in
/-- Only a request ends the service. -/
theorem stage_act {action : Action} (haction : ¬ action.IsShutdown) (h : life.stage = .serving) :
    (life.act action).stage = .serving := by
  cases action with
  | recover => rw [act, whileServing, if_pos h]; exact h
  | call call preference =>
    rw [act, whileServing, if_pos h]
    cases call with
    | shutdown phase => exact h
    | _ =>
      simp only [Life.call]
      split <;> exact h
  | takeId sequence =>
    rw [act, whileServing, if_pos h, Life.takeId]
    split
    · split <;> exact h
    · exact h
  | commit event =>
    rw [act, whileServing, if_pos h, Life.commit]
    split
    · split_ifs
      · split <;> exact h
      · exact h
    · exact h
  | finish =>
    rw [act, whileServing, if_pos h, Life.finish]
    split
    · rw [stage_letGo, h]
    · exact h
  | cancel isCommitted =>
    rw [act, whileServing, if_pos h, Life.cancel]
    split
    · split_ifs
      · rw [stage_letGo, h]
      · exact h
    · exact h
  | shutdown => exact absurd trivial haction
  | recovery preference =>
    rw [act, Life.recovery]
    split <;> exact h
  | work =>
    rw [act, Life.work]
    split <;> exact h
  | wait milliseconds => exact h
  | disturb reads writes logReads => exact h
  | crash config => rfl

omit [LawfulBackend β] in
theorem stage_run {actions : List Action} (hactions : ∀ action ∈ actions, ¬ action.IsShutdown)
    (h : life.stage = .serving) : (life.run actions).stage = .serving := by
  induction actions generalizing life with
  | nil => exact h
  | cons action actions ih =>
    exact ih (fun other hother ↦ hactions other (List.mem_cons_of_mem action hother))
      (stage_act (hactions action List.mem_cons_self) h)

/-- What a crash leaves behind is enough. -/
structure Survives (life : Life β) : Prop where
  /-- A sequencer started again becomes ready with the counters of the log. -/
  reopens : ∀ config, (life.run (reopening config)).sequencer.status = .ready ∧
    (life.run (reopening config)).sequencer.counters = observed life.events
  /-- Whatever happens to it, it stays consistent with the log until a batch of its own is written. -/
  serves : ∀ config actions, (∀ action ∈ actions, action.IsOrderly) →
    ((life.crash config).run actions).settled = [] → ((life.crash config).run actions).Consistent

/-- **Crash consistency.** In a life without crashes, shutdowns and cancelled events in the log, the
rows are at every moment the counters of a first part of the log, and a recovery comes to the counters
of the whole log, whether it is one after a crash or one that is in progress. -/
theorem run_consistent {store : Faulty β} {log : MemoryLog} {partition : PartitionId}
    (hstore : Checkpoint.Stores store.rows partition .empty) (hlog : log.events partition = [])
    (config : Config) (actions : List Action)
    (hactions : ∀ action ∈ actions, action.IsOrderly ∧ ¬ action.IsShutdown) :
    ((start store log partition config).run actions).Consistent ∧
      ((start store log partition config).run actions).Survives := by
  obtain ⟨hsound, horderly⟩ := run_orderly hstore hlog config fun action haction ↦
    (hactions action haction).1
  have hserving : ((start store log partition config).run actions).stage = .serving :=
    stage_run (fun action haction ↦ (hactions action haction).2) rfl
  have hfaithful := horderly.faithful (hsound.serving_iff.mp hserving)
  have hconsistent := consistent_of_faithful hfaithful
  refine ⟨hconsistent, fun other ↦ ?_, fun other more horderlyMore hsettled ↦ ?_⟩
  · obtain ⟨store, log, -, hreopened⟩ := run_reopening hconsistent.recovered other
    rw [hreopened]
    exact ⟨rfl, rfl⟩
  · exact consistent_of_crash hfaithful other horderlyMore hsettled

/-- A checkpoint lags behind the log when an event is cancelled. -/
def lagging : List Action :=
  loading ++ building firstUsage ++ List.replicate 3 .work ++
    .disturb .none (.times 1) 0 :: building otherUsage ++ [.work, .work] ++
    [.call (.reserving ⟨10⟩) .progress, .takeId .compacting, .cancel false]

theorem consistent_lagging :
    (blank.run lagging).settled.length < (blank.run lagging).events.length ∧
      (blank.run lagging).Consistent ∧ (blank.run lagging).Survives :=
  ⟨by decide +kernel, run_consistent stores_blank rfl _ lagging
    (by simp [lagging, loading, building, firstUsage, otherUsage, Action.IsOrderly,
      Action.IsShutdown])⟩

/-! ### With a shutdown -/

/-- **Recovery after a shutdown.** In a life without crashes and without cancelled events in the log,
whenever a shutdown is requested and whichever writes fail, a recovery comes to the counters of the
log, unless a batch was given up and a later one hides it. -/
theorem recovered_iff {store : Faulty β} {log : MemoryLog} {partition : PartitionId}
    (hstore : Checkpoint.Stores store.rows partition .empty) (hlog : log.events partition = [])
    (config : Config) (actions : List Action) (horderly : ∀ action ∈ actions, action.IsOrderly) :
    ((start store log partition config).run actions).recovered =
        .ok (observed ((start store log partition config).run actions).events) ↔
      ¬ Hides ((start store log partition config).run actions).settled := by
  obtain ⟨-, horderlyRun⟩ := run_orderly hstore hlog config horderly
  obtain ⟨checkpoint, hstores, hreplayed⟩ := horderlyRun.replayed_iff
  rw [recovered_eq hstores, Except.ok.injEq]
  exact hreplayed

/-- A write fails after a shutdown was requested, and the last one does not. -/
def eclipsing : List Action :=
  loading ++ [.disturb .none (.times 1) 0] ++ building firstUsage ++
    building otherUsage ++ .shutdown :: List.replicate 3 .work ++
    List.replicate 4 .shutdown ++ List.replicate 3 .work ++ List.replicate 2 .shutdown ++
    .work :: List.replicate 2 .shutdown

theorem hides_eclipsing : Hides (blank.run eclipsing).settled := by
  have hsettled : (blank.run eclipsing).settled = ended .landed [] ++
      ended .abandoned [Counters.empty.batchOf [firstUsage.toEvent]] ++
        [((observed [firstUsage.toEvent]).batchOf [otherUsage.toEvent], .landed)] := by
    decide +kernel
  rw [hsettled, hides_last_iff]
  exact ⟨_, List.mem_singleton_self _, ⟨10⟩, by decide +kernel, by decide +kernel⟩

theorem eclipsing_not_recovered : (blank.run eclipsing).stage = .stopped ∧
    (blank.run eclipsing).recovered ≠ .ok (observed (blank.run eclipsing).events) :=
  ⟨by decide +kernel, fun hrecovered ↦ (recovered_iff stores_blank rfl _ eclipsing
    (by simp [eclipsing, loading, building, firstUsage, otherUsage, Action.IsOrderly])).mp
      hrecovered hides_eclipsing⟩

end Life

end LogSequencing
