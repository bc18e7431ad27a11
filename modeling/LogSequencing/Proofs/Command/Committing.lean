import LogSequencing.Proofs.Command.Deployment
import LogSequencing.Proofs.Event.Length

/-!
# Committing a load

A deployed sequencer that is ready commits a load event by event (`Commits.commit`): the event takes
the next numbers of all its sequences (`Commits.allocate`) and joins the log, or it does not fit into an
entry, is cancelled and is the last one (`Builds.write`). So a prefix of the load is committed
(`Commits.commitAll`), and the counters are those of the log. All this is while no event that is
drafted (`Load.Drafts`) is so long that the length of its entry cannot be told.
-/

set_option autoImplicit false
set_option relaxedAutoImplicit false

namespace LogSequencing

/-- An event of the load that is drafted behind these events at this time. -/
inductive Load.Next (load : Load) (now : Instant) (events : List Event) : Event → Prop
  | mk (allocation : Allocation) (hsize : allocation.size = load.size)
    (hcontinues : load.Continues events (allocation.toEvent load.workspace now)) :
    load.Next now events (allocation.toEvent load.workspace now)

theorem Load.Next.continues {load : Load} {now : Instant} {events : List Event} {event : Event}
    (h : load.Next now events event) : load.Continues events event := by
  cases h with
  | mk _ _ hcontinues => exact hcontinues

/-- One of the events that are drafted when so many events of the load are to be committed behind these
events: the next one, or one behind it if it fits into an entry. -/
inductive Load.Drafts (load : Load) (now : Instant) : Nat → List Event → Event → Prop
  | next {count : Nat} {events : List Event} {event : Event} (hnext : load.Next now events event) :
    Drafts load now (count + 1) events event
  | behind {count : Nat} {events : List Event} {first event : Event} {entry : Octets}
    (hfirst : load.Next now events first) (hencode : Entry.encode first = .ok entry)
    (hlater : Drafts load now count (events ++ [first]) event) :
    Drafts load now (count + 1) events event

/-- Up to 70 million records, the length of the entry can be told. -/
theorem Load.Drafts.isCounted_of_le {load : Load} {now : Instant} {count : Nat}
    {events : List Event} {event : Event} (h : load.Drafts now count events event)
    (hsize : load.size ≤ 70000000) : event.IsCounted := by
  induction h with
  | next hnext =>
    cases hnext with
    | mk _ hallocated _ => exact Allocation.isCounted_of_le (hallocated.trans_le hsize)
  | behind _ _ _ ih => exact ih

/-- How committing so many events of a load ends after `n` of them: with all in the log, or before one
that does not fit into an entry. Where events fit, they have less than 1,700,000 records, and where one
does not, more than 1,000,000. -/
inductive Load.Ends (load : Load) (count : Nat) (grown : List Event) :
    (n : Nat) → Except Breakdown Unit → Prop
  | all (hsmall : 0 < count → load.size < 1700000) : load.Ends count grown count (.ok ())
  | stopped {n : Nat} {event : Event} {error : LogError} (hcount : n < count)
    (hnext : load.Continues grown event) (hencode : Entry.encode event = .error error)
    (hlarge : 1000000 < load.size) :
    load.Ends count grown n (.error (.failure (.notCommitted event.offset error)))

theorem Load.Ends.succ {load : Load} {count n : Nat} {grown : List Event}
    {result : Except Breakdown Unit} (h : load.Ends count grown n result)
    (hsmall : load.size < 1700000) : load.Ends (count + 1) grown (n + 1) result := by
  cases h with
  | all => exact .all fun _ ↦ hsmall
  | stopped hcount hnext hencode hlarge =>
    exact .stopped (Nat.succ_lt_succ hcount) hnext hencode hlarge

/-- A sequencer that builds this event after those. -/
structure Sequencer.BuildsAfter (s : Sequencer) (base new : List Event) (event : Event) : Prop
    extends s.Carries base new where
  status : s.status = .eventing
  settled : s.recovery = .absent
  serving : s.isStopping = false
  workspace : s.workspace = event.workspace
  counters : s.counters = observed (base ++ (new ++ [event]))

namespace Deployment

variable {β : Type} {deployment : Deployment β} {writer : Writer} {store : β} {log : FileLog}
  {now : Instant} {partition : PartitionId} {history : PartitionId → List Event} {new : List Event}
  {load : Load} {event : Event} {s s' : Sequencer}

/-- The deployment may commit: its sequencer is ready after these events of its partition, and the
writer is open behind them. -/
def Commits (deployment : Deployment β) (writer : Writer) (store : β) (now : Instant)
    (partition : PartitionId) (history : PartitionId → List Event) (new : List Event) : Prop :=
  ∃ s log, deployment.Runs s store log ∧ s.partition = partition ∧
    s.ReadyAfter (history partition) new ∧
    log.Holds partition (some writer)
      (Function.update history partition (history partition ++ new)) ∧ log.now = now

/-- The deployment builds this event, which is to join the log behind the writer. -/
def Builds (deployment : Deployment β) (writer : Writer) (store : β) (now : Instant)
    (partition : PartitionId) (history : PartitionId → List Event) (new : List Event)
    (event : Event) : Prop :=
  ∃ s log, deployment.Runs s store log ∧ s.partition = partition ∧
    s.BuildsAfter (history partition) new event ∧
    log.Holds partition (some writer)
      (Function.update history partition (history partition ++ new)) ∧ log.now = now

theorem Commits.rests (h : deployment.Commits writer store now partition history new) :
    deployment.Rests store partition history new := by
  obtain ⟨s, log, hruns, hpartition, hready, hlog, -⟩ := h
  exact ⟨s, log, hruns, hpartition, hready.toCarries, hready.status ▸ nofun, Or.inl hready.settled,
    hlog.close _⟩

theorem Commits.counters (h : deployment.Commits writer store now partition history new) :
    deployment.counters = observed (history partition ++ new) := by
  obtain ⟨s, log, hruns, hpartition, hready, -⟩ := h
  exact hruns.counters.trans hready.counters

variable [Backend β]

/-- A request that is granted. -/
theorem Runs.request (h : deployment.Runs s store log)
    {action : Sequencer → Except Violation Unit × Sequencer} (haction : action s = (.ok (), s'))
    (hpartition : s'.partition = s.partition)
    (hlines : ∀ tasks, Engine.Lined tasks →
      (Engine.single 0 store log s' tasks (Engine.lineUp s)).enqueue =
        Engine.single 0 store log s' tasks (Engine.lineUp s')) :
    ∃ after, deployment.request action = (.ok (), after) ∧ after.Runs s' store log := by
  obtain ⟨tasks, hlined, hengine⟩ := h.engine
  have hrequest : deployment.engine.request deployment.number action =
      (some (.ok ()), Engine.single 0 store log s' tasks (Engine.lineUp s')) := by
    rw [h.number, hengine, Engine.request_single, haction]
    exact congrArg (some (Except.ok ()), ·) (hlines tasks hlined)
  refine ⟨{ deployment with engine := Engine.single 0 store log s' tasks (Engine.lineUp s') }, ?_,
    h.number, h.partition.trans hpartition.symm, h.deployed, tasks, hlined, rfl⟩
  rw [Deployment.request, hrequest]

/-- Finishing an event that is in the log hands it on to the flusher. -/
theorem Runs.finish (h : deployment.Runs s store log) {base : List Event}
    (hbuilds : s.BuildsAfter base new event) :
    ∃ after s', deployment.request Sequencer.finishEvent = (.ok (), after) ∧
      after.Runs s' store log ∧ s'.partition = s.partition ∧
      s'.ReadyAfter base (new ++ [event]) := by
  obtain ⟨sent, waiting, rfl, hflusher⟩ := hbuilds.flusher
  obtain ⟨sent', waiting', hnew, hsent, hcollect⟩ :=
    Flusher.collect_carrying s.config.flushThreshold.toNat base sent waiting event
  let finished : Sequencer := { s with status := .ready, flusher := .carrying base sent' waiting' }
  have hfinish : s.finishEvent = (.ok (), finished) := by
    have hleft : s.finishedEvent =
        (observed (base ++ (sent ++ waiting ++ [event]))).leaving event.workspace := by
      rw [← hbuilds.counters, ← hbuilds.workspace]
      rfl
    have hallowed : s.status = Request.finishEvent.status := hbuilds.status
    rw [Sequencer.finishEvent, Sequencer.guarded, if_pos hallowed, hleft, hflusher, hcollect]
  have hready : finished.ReadyAfter base (sent ++ waiting ++ [event]) :=
    ⟨⟨⟨sent', waiting', hnew, rfl⟩, hbuilds.isKept, hbuilds.unclaimed⟩, rfl, hbuilds.settled,
      hbuilds.serving, hbuilds.counters⟩
  have hplace : s.flusher.handedOff? = none ∨
      finished.flusher.handedOff? = s.flusher.handedOff? := by
    rw [hflusher]
    rcases hsent with rfl | rfl
    · exact Or.inl (show stretchBatch? base [] = none from if_pos rfl)
    · exact Or.inr rfl
  obtain ⟨after, hrequest, hruns⟩ := h.request hfinish rfl fun tasks hlined ↦
    Engine.enqueue_finished hlined hready.isIdle hbuilds.settled hbuilds.settled hplace
  exact ⟨after, finished, hrequest, hruns, rfl, hready⟩

/-- Cancelling an event begins a recovery. -/
theorem Runs.cancel (h : deployment.Runs s store log) {base : List Event}
    (hbuilds : s.BuildsAfter base new event) :
    ∃ after, deployment.request Sequencer.cancelEvent = (.ok (), after) ∧
      after.Runs s.startRecovery store log := by
  have hidle : s.startRecovery.IsIdle :=
    ⟨hbuilds.isIdle.worker, hbuilds.isIdle.isOpen, hbuilds.isIdle.isKept⟩
  have hcancel : s.cancelEvent = (.ok (), s.startRecovery) := by
    have hallowed : s.status = Request.cancelEvent.status := hbuilds.status
    rw [Sequencer.cancelEvent, Sequencer.guarded, if_pos hallowed]
  exact h.request hcancel rfl fun tasks hlined ↦
    Engine.enqueue_reopened 0 store log hlined hidle hbuilds.settled rfl rfl

theorem commit_of_allocated {allocation : Allocation} {engine : Engine β FileLog}
    (hallocate : deployment.engine.allocate deployment.number load.workspace
      deployment.settings.patience load.ordinary load.compacting = (.ok (some allocation), engine)) :
    deployment.commit load writer = Deployment.write { deployment with engine } writer
      (allocation.toEvent load.workspace engine.log.now) := by
  rw [commit, hallocate]

theorem write_of_appended {next : Writer} {after : Deployment β}
    (happend : deployment.engine.log.append deployment.partition writer event none =
      (.ok (), next, log))
    (hrequest : Deployment.request
      { deployment with engine := { deployment.engine with log } } Sequencer.finishEvent =
        (.ok (), after)) :
    deployment.write writer event = (.ok (), next, after) := by
  simp only [write, happend, hrequest]

theorem write_of_refused {error : LogError} {next : Writer} {after : Deployment β}
    (happend : deployment.engine.log.append deployment.partition writer event none =
      (.error error, next, log))
    (hrequest : Deployment.request
      { deployment with engine := { deployment.engine with log } } Sequencer.cancelEvent =
        (.ok (), after)) :
    deployment.write writer event =
      (.error (.failure (.notCommitted event.offset error)), next, after) := by
  simp only [write, happend, hrequest]
  rfl

/-- The event joins the log, or it does not fit into an entry and is cancelled. -/
theorem Builds.write (h : deployment.Builds writer store now partition history new event)
    (hstorable : event.IsStorable)
    (hnext : (observed (history partition ++ new)).offset < event.offset) :
    (∃ entry next after, Entry.encode event = .ok entry ∧
        deployment.write writer event = (.ok (), next, after) ∧
        after.Commits next store now partition history (new ++ [event])) ∨
      ∃ error after, Entry.encode event = .error error ∧
        deployment.write writer event =
          (.error (.failure (.notCommitted event.offset error)), writer, after) ∧
        after.Rests store partition history new := by
  obtain ⟨s, log, hruns, rfl, hbuilds, hlog, rfl⟩ := h
  obtain ⟨tasks, hlined, hengine⟩ := hruns.engine
  have hsame : deployment.engine.log.append deployment.partition writer event none =
      log.append s.partition writer event none := by
    rw [hengine, hruns.partition]
    rfl
  have hbehind (log : FileLog) : Deployment.Runs
      { deployment with engine := { deployment.engine with log } } s store log :=
    ⟨hruns.number, hruns.partition, hruns.deployed, tasks, hlined,
      congrArg (fun engine : Engine β FileLog ↦ { engine with log }) hengine⟩
  rw [← Function.update_self s.partition (history s.partition ++ new) history] at hnext
  rcases hlog.append hstorable hnext with ⟨error, hencode, happend⟩ |
    ⟨entry, next, grown, hencode, happend, hgrown, hnow⟩
  · obtain ⟨after, hrequest, hcancelled⟩ := (hbehind log).cancel hbuilds
    refine Or.inr ⟨error, after, hencode, ?_, s.startRecovery, log, hcancelled, rfl,
      ⟨hbuilds.flusher, hbuilds.isKept, rfl⟩, nofun, Or.inr ⟨0, rfl⟩, hlog.close _⟩
    exact write_of_refused (hsame.trans happend) hrequest
  · obtain ⟨after, s', hrequest, hfinished, hpartition, hready⟩ := (hbehind grown).finish hbuilds
    refine Or.inl ⟨entry, next, after, hencode, ?_, s', grown, hfinished, hpartition, hready, ?_, hnow⟩
    · exact write_of_appended (hsame.trans happend) hrequest
    · rw [Function.update_idem, Function.update_self, List.append_assoc] at hgrown
      exact hgrown

/-- What is built next is an event of the load. -/
theorem Commits.allocate (h : deployment.Commits writer store now partition history new)
    (hunrepeating : Unrepeating (history partition ++ new))
    (hroom : ∀ workspace kind, (observed (history partition ++ new)).lastOf workspace kind +
      load.share workspace kind < 2 ^ 64) :
    ∃ (allocation : Allocation) (building : Deployment β), allocation.size = load.size ∧
      load.Continues (history partition ++ new) (allocation.toEvent load.workspace now) ∧
      deployment.commit load writer =
        building.write writer (allocation.toEvent load.workspace now) ∧
      building.Builds writer store now partition history new
        (allocation.toEvent load.workspace now) := by
  obtain ⟨s, log, hruns, rfl, hready, hlog, rfl⟩ := h
  obtain ⟨tasks, hlined, hengine⟩ := hruns.engine
  rw [← hready.counters] at hroom
  obtain ⟨allocation, usage, counters, hordinary, hcompacting, hfits, hdrafted, hlast, hallocate⟩ :=
    Engine.allocate_single 0 store log hlined hready.isIdle hready.status hready.serving load
      deployment.settings.patience hroom
  rw [hready.counters] at hdrafted hlast
  obtain ⟨hcounters, hcontinues⟩ := Load.continues_of_drafted hdrafted (hfits log.now) rfl
    (observed_tight hunrepeating.proper) hlast
  rw [List.append_assoc] at hcounters
  let building : Sequencer :=
    { s with status := .eventing, workspace := load.workspace, counters }
  refine ⟨allocation,
    { deployment with engine := Engine.single 0 store log building tasks (Engine.lineUp building) },
    congrArg₂ (· + ·) hordinary hcompacting, hcontinues, ?_, building, log,
    ⟨hruns.number, hruns.partition, hruns.deployed, tasks, hlined, rfl⟩, rfl,
    ⟨⟨hready.flusher, hready.isKept, hready.unclaimed⟩, rfl, hready.settled, hready.serving, rfl,
      hcounters⟩, hlog, rfl⟩
  refine commit_of_allocated ?_
  rw [hruns.number, hengine]
  exact hallocate

/-- What is committed next is an event of the load. It joins the log, or it does not fit into an entry
and is the last one. -/
theorem Commits.commit (h : deployment.Commits writer store now partition history new)
    (hunrepeating : Unrepeating (history partition ++ new)) (htime : now.IsValid)
    (hcounted : ∀ event, load.Next now (history partition ++ new) event → event.IsCounted)
    (hroom : ∀ workspace kind, (observed (history partition ++ new)).lastOf workspace kind +
      load.share workspace kind < 2 ^ 64) :
    ∃ event, load.Next now (history partition ++ new) event ∧
      ((∃ entry next after, Entry.encode event = .ok entry ∧ load.size < 1700000 ∧
          deployment.commit load writer = (.ok (), next, after) ∧
          after.Commits next store now partition history (new ++ [event])) ∨
        ∃ error after, Entry.encode event = .error error ∧ 1000000 < load.size ∧
          deployment.commit load writer =
            (.error (.failure (.notCommitted event.offset error)), writer, after) ∧
          after.Rests store partition history new) := by
  obtain ⟨allocation, building, hallocated, hcontinues, hcommit, hbuilds⟩ :=
    h.allocate hunrepeating hroom
  have hnext : load.Next now (history partition ++ new) (allocation.toEvent load.workspace now) :=
    .mk allocation hallocated hcontinues
  have hcounted := hcounted _ hnext
  refine ⟨_, hnext, ?_⟩
  rw [← hallocated, hcommit]
  rcases hbuilds.write ⟨htime, hcounted⟩ hcontinues.offset with
    ⟨entry, next, after, hencode, hwrite, hcommits⟩ | ⟨error, after, hencode, hwrite, hrests⟩
  · exact Or.inl ⟨entry, next, after, hencode, Allocation.size_lt_of_encode_eq_ok hcounted hencode,
      hwrite, hcommits⟩
  · exact Or.inr
      ⟨error, after, hencode, Allocation.lt_size_of_encode_eq_error hencode, hwrite, hrests⟩

/-- Committing so many events of a load brings the first of them into the log, and with them all the
counters to its end. -/
theorem Commits.commitAll (htime : now.IsValid) {count : Nat}
    (h : deployment.Commits writer store now partition history new)
    (hcounted : ∀ event, load.Drafts now count (history partition ++ new) event → event.IsCounted)
    (hunrepeating : Unrepeating (history partition ++ new))
    (hroom : ∀ workspace kind, (observed (history partition ++ new)).lastOf workspace kind +
      count * load.share workspace kind < 2 ^ 64) :
    ∃ n grown result after, deployment.commitAll load count writer = (result, after) ∧
      load.Grows (history partition ++ new) n (history partition ++ grown) ∧
      load.Ends count (history partition ++ grown) n result ∧
      after.Rests store partition history grown ∧
      (result = .ok () → after.counters = observed (history partition ++ grown)) := by
  induction count generalizing deployment writer new with
  | zero =>
    exact ⟨0, new, .ok (), deployment, rfl, .nothing _, .all nofun, h.rests, fun _ ↦ h.counters⟩
  | succ count ih =>
    have hfirst (workspace : WorkspaceId) (kind : SequenceKind) :
        (observed (history partition ++ new)).lastOf workspace kind +
          load.share workspace kind < 2 ^ 64 := by
      refine Nat.lt_of_le_of_lt (Nat.add_le_add_left ?_ _) (hroom workspace kind)
      exact Nat.le_mul_of_pos_left _ count.succ_pos
    obtain ⟨event, hnext, hcommitted | hrefused⟩ := h.commit hunrepeating htime
      (fun event hnext ↦ hcounted event (.next hnext)) hfirst
    · obtain ⟨entry, next, committed, hencode, hsmall, hcommit, hcommits⟩ := hcommitted
      have hunrepeating' : Unrepeating (history partition ++ (new ++ [event])) := by
        rw [← List.append_assoc]
        exact hnext.continues.unrepeating hunrepeating
      have hrest (workspace : WorkspaceId) (kind : SequenceKind) :
          (observed (history partition ++ (new ++ [event]))).lastOf workspace kind +
            count * load.share workspace kind < 2 ^ 64 := by
        have hroom := hroom workspace kind
        rw [← List.append_assoc, hnext.continues.last]
        rw [Nat.succ_mul] at hroom
        omega
      have hcounted' : ∀ later, load.Drafts now count (history partition ++ (new ++ [event])) later →
          later.IsCounted := fun later hlater ↦ by
        rw [← List.append_assoc] at hlater
        exact hcounted later (.behind hnext hencode hlater)
      obtain ⟨n, grown, result, after, hcommitAll, hgrows, hends, hafter⟩ :=
        ih hcommits hcounted' hunrepeating' hrest
      rw [← List.append_assoc] at hgrows
      refine ⟨n + 1, grown, result, after, ?_, .add hnext.continues hgrows, hends.succ hsmall, hafter⟩
      simp only [Deployment.commitAll, hcommit, hcommitAll]
    · obtain ⟨error, after, hencode, hlarge, hcommit, hrests⟩ := hrefused
      refine ⟨0, new, _, after, ?_, .nothing _,
        .stopped count.succ_pos hnext.continues hencode hlarge, hrests, nofun⟩
      simp only [Deployment.commitAll, hcommit]

theorem append_of_opened {result : Except Breakdown Unit} {after : Deployment β}
    (hopen : deployment.engine.log.openWriter deployment.partition Writer.defaultMaxSegmentSize =
      (.ok writer, log))
    (hcommitAll : Deployment.commitAll load load.events writer
      { deployment with engine := { deployment.engine with log } } = (result, after)) :
    deployment.append load = after.conclude result := by
  simp only [Deployment.append, hopen, hcommitAll]

/-- A deployment that is ready commits a prefix of a load and is stopped. -/
theorem Runs.append [LawfulBackend β] (h : deployment.Runs s store log)
    (hpartition : s.partition = partition) (hready : s.ReadyAfter (history partition) [])
    (hstanding : Standing (LawfulBackend.rows store) log history) (htime : log.now.IsValid)
    (hcounted : ∀ event, load.Drafts log.now load.events (history partition) event →
      event.IsCounted)
    (hroom : ∀ workspace kind, (observed (history partition)).lastOf workspace kind +
      load.events * load.share workspace kind < 2 ^ 64) :
    ∃ n grown result after log',
      deployment.append load =
        (result.map fun _ ↦ observed (history partition ++ grown), after, log') ∧
      load.Grows (history partition) n (history partition ++ grown) ∧
      load.Ends load.events (history partition ++ grown) n result ∧
      Standing (LawfulBackend.rows after) log'
        (Function.update history partition (history partition ++ grown)) := by
  obtain ⟨tasks, hlined, hengine⟩ := h.engine
  obtain ⟨writer, opened, hopen, hopened, hnow⟩ :=
    (hstanding.log partition).openWriter Writer.defaultMaxSegmentSize
  let writing : Deployment β :=
    { deployment with engine := { deployment.engine with log := opened } }
  have hcommits : writing.Commits writer store log.now partition history [] := by
    refine ⟨s, opened, ⟨h.number, h.partition, h.deployed, tasks, hlined, ?_⟩, hpartition, hready, ?_,
      hnow⟩
    · exact congrArg (fun engine : Engine β FileLog ↦ { engine with log := opened }) hengine
    · rw [List.append_nil, Function.update_eq_self]
      exact hopened
  have hunrepeating := hstanding.unrepeating partition
  rw [← List.append_nil (history partition)] at hunrepeating hroom hcounted
  obtain ⟨n, grown, result, rested, hcommitAll, hgrows, hends, hrests, hcounters⟩ :=
    hcommits.commitAll htime hcounted hunrepeating hroom
  obtain ⟨after, log', hstop, hafter⟩ := hrests.stop hstanding.stores fun other ↦ by
    by_cases hother : other = partition
    · rw [hother, Function.update_self]
      exact hgrows.unrepeating hunrepeating
    · rw [Function.update_of_ne hother]
      exact hstanding.unrepeating other
  rw [List.append_nil] at hgrows
  refine ⟨n, grown, result, after, log', ?_, hgrows, hends, hafter⟩
  have hopen' : deployment.engine.log.openWriter deployment.partition
      Writer.defaultMaxSegmentSize = (.ok writer, opened) := by
    rw [hengine, h.partition, hpartition]
    exact hopen
  have hcontinues : ∀ violation, result ≠ .error (.violation violation) := by
    cases hends <;> exact nofun
  rw [append_of_opened hopen' hcommitAll, conclude_eq hstop hcontinues]
  cases hends with
  | all => rw [hcounters rfl]
  | stopped => rfl

end Deployment

end LogSequencing
