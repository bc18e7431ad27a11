import LogSequencing.Command
import LogSequencing.Engine.Client
import LogSequencing.Proofs.Engine.Calls
import LogSequencing.Proofs.Life.Draft

/-!
# Building events on a single sequencer

While no number space is exhausted, a sequencer that is ready hands out the numbers of an event
(`allocate_single`): the next offsets, and as many record numbers as were asked for. What an event of
a load takes from each sequence (`Load.share`) is what the counters grow by.
-/

set_option autoImplicit false
set_option relaxedAutoImplicit false

namespace LogSequencing

/-- How many numbers an event of the load takes from a sequence of a workspace. -/
def Load.share (load : Load) (workspace : WorkspaceId) : SequenceKind → Nat
  | .offset => 1
  | .workspaceOffset => if load.workspace = workspace then 1 else 0
  | .id .ordinary => if load.workspace = workspace then load.ordinary else 0
  | .id .compacting => if load.workspace = workspace then load.compacting else 0

/-- An event uses what was handed out for it. -/
theorem Allocation.usedIds_toEvent (allocation : Allocation) (workspace : WorkspaceId)
    (time : Instant) : (allocation.toEvent workspace time).usedIds =
      allocation.ordinaryIds.map (.ordinary, ·) ++ allocation.compactingIds.map (.compacting, ·) := by
  have hordinary (id : RecordId) : Mutation.usedId? ⟨id, .wDoc, true⟩ = some (.ordinary, id) := rfl
  have hcompacting (id : RecordId) : Mutation.usedId? ⟨id, .cDoc, true⟩ = some (.compacting, id) :=
    rfl
  simp [Event.usedIds, toEvent, List.filterMap_map, hordinary, hcompacting]

namespace Engine

variable {β σ : Type} [Backend β] [LogSource σ] (clock : Nat) (store : β) (log : σ) {s : Sequencer}
  {tasks : List Task} {base : Counters} {usage : Usage}

/-! ### Record numbers -/

theorem nextId_eq_ok {sequence : IdSequence} {id : RecordId} (hstatus : s.status = .eventing)
    (hnext : (s.counters.lastId sequence s.workspace).next? = some id) :
    s.nextId sequence = (.ok id, { s with
      counters := s.counters.setIds sequence ((s.counters.ids sequence).insert s.workspace id) }) := by
  have hallowed : s.status = (Sequencer.idRequest sequence).status := by
    rw [hstatus]
    cases sequence <;> rfl
  simp only [Sequencer.nextId, Sequencer.guarded, if_pos hallowed, hnext]

theorem lastOf_taken {workspace : WorkspaceId} {sequence : IdSequence} {id : RecordId}
    (hnext : (base.lastId sequence workspace).next? = some id) (other : WorkspaceId)
    (kind : SequenceKind) :
    (base.setIds sequence ((base.ids sequence).insert workspace id)).lastOf other kind =
      base.lastOf other kind + if kind = .id sequence ∧ workspace = other then 1 else 0 := by
  rw [taken_eq_setLast, Counters.lastOf_setLast]
  by_cases hhere : kind = .id sequence ∧ workspace = other
  · obtain ⟨rfl, rfl⟩ := hhere
    simp [Serial.toNat_of_next? hnext, Counters.lastOf_id]
  · rw [if_neg fun hsame ↦ hhere ⟨hsame.1.symm, hsame.2.resolve_left nofun⟩, if_neg hhere,
      Nat.add_zero]

/-- As many record numbers as are asked for are handed out, if there are so many. -/
theorem takeIds_single (hlined : Lined tasks) (hidle : s.IsIdle) (hstatus : s.status = .eventing)
    (hdrafted : Drafted base usage s.counters) (hworkspace : usage.workspace = s.workspace)
    (sequence : IdSequence) {n : Nat}
    (hroom : s.counters.lastOf s.workspace (.id sequence) + n < 2 ^ 64) :
    ∃ ids counters, ids.length = n ∧
      Drafted base { usage with ids := usage.ids ++ ids.map (sequence, ·) } counters ∧
      (∀ workspace kind, counters.lastOf workspace kind = s.counters.lastOf workspace kind +
        if kind = .id sequence ∧ s.workspace = workspace then n else 0) ∧
      (single clock store log s tasks (lineUp s)).takeIds 0 sequence n =
        (.ok ids, single clock store log { s with counters } tasks (lineUp s)) := by
  induction n generalizing s usage with
  | zero =>
    refine ⟨[], s.counters, rfl, ?_, fun workspace kind ↦ ?_, rfl⟩
    · rw [List.map_nil, List.append_nil]
      exact hdrafted
    · rw [ite_self, Nat.add_zero]
  | succ n ih =>
    have hlt : (s.counters.lastId sequence s.workspace).val.toNat < 2 ^ 64 - 1 := by
      rw [← Counters.lastOf_id]
      omega
    obtain ⟨id, hnext⟩ := Serial.exists_next? hlt
    let taken : Sequencer := { s with
      counters := s.counters.setIds sequence ((s.counters.ids sequence).insert s.workspace id) }
    have hlast (workspace : WorkspaceId) (kind : SequenceKind) :
        taken.counters.lastOf workspace kind = s.counters.lastOf workspace kind +
          if kind = .id sequence ∧ s.workspace = workspace then 1 else 0 :=
      lastOf_taken hnext workspace kind
    have hidle' : taken.IsIdle := ⟨hidle.worker, hidle.isOpen, hidle.isKept⟩
    have hrequest : (single clock store log s tasks (lineUp s)).request 0 (·.nextId sequence) =
        (some (.ok id), single clock store log taken tasks (lineUp taken)) := by
      rw [request_single, nextId_eq_ok hstatus hnext]
      exact congrArg (some (Except.ok id), ·) (enqueue_lineUp hlined hidle')
    have hdrafted' : Drafted base { usage with ids := usage.ids ++ [(sequence, id)] }
        taken.counters := by
      have hcounters : taken.counters =
          s.counters.setIds sequence ((s.counters.ids sequence).insert usage.workspace id) := by
        rw [hworkspace]
      rw [hcounters]
      exact hdrafted.takeId (hworkspace ▸ hnext)
    have hroom' : taken.counters.lastOf s.workspace (.id sequence) + n < 2 ^ 64 := by
      rw [hlast, if_pos ⟨rfl, rfl⟩]
      omega
    obtain ⟨ids, counters, hlength, hgrown, hlasts, htakes⟩ :=
      ih (s := taken) hidle' hstatus hdrafted' hworkspace hroom'
    refine ⟨id :: ids, counters, congrArg Nat.succ hlength, ?_, fun workspace kind ↦ ?_, ?_⟩
    · rw [List.map_cons, List.append_cons]
      exact hgrown
    · rw [hlasts, hlast]
      split_ifs <;> omega
    · simp only [takeIds, hrequest, htakes]
      rfl

/-! ### Whole events -/

/-- The offsets of an event are the next ones. -/
theorem takeOffsets_eq_ok {workspace : WorkspaceId} {offset last : Offset}
    (hoffset : s.counters.offset.next? = some offset)
    (hlast : (s.counters.workspaceOffset workspace).next? = some last) :
    s.takeOffsets workspace = (.ok (offset, last), { s with
      workspace
      status := .eventing
      counters := { s.counters with
        offset, workspaceOffsets := s.counters.workspaceOffsets.insert workspace last } }) := by
  have hlast' : (Counters.workspaceOffset { s.counters with offset } workspace).next? = some last :=
    hlast
  simp only [Sequencer.takeOffsets, hoffset, Sequencer.takeWorkspaceOffset, hlast']

/-- Where there is room for an event, there are offsets for it. -/
theorem exists_next_offsets {load : Load}
    (hroom : ∀ workspace kind, base.lastOf workspace kind + load.share workspace kind < 2 ^ 64) :
    ∃ offset last, base.offset.next? = some offset ∧
      (base.workspaceOffset load.workspace).next? = some last := by
  have hoffset : base.offset.val.toNat + 1 < 2 ^ 64 := hroom load.workspace .offset
  have hlast := hroom load.workspace .workspaceOffset
  rw [Load.share, if_pos rfl, Counters.lastOf_workspaceOffset] at hlast
  obtain ⟨offset, hnext⟩ : ∃ offset, base.offset.next? = some offset :=
    Serial.exists_next? (by omega)
  obtain ⟨last, hnext'⟩ : ∃ last, (base.workspaceOffset load.workspace).next? = some last :=
    Serial.exists_next? (by omega)
  exact ⟨offset, last, hnext, hnext'⟩

theorem lastOf_reserved {workspace : WorkspaceId} {offset last : Offset}
    (hoffset : base.offset.next? = some offset)
    (hlast : (base.workspaceOffset workspace).next? = some last) (other : WorkspaceId)
    (kind : SequenceKind) :
    Counters.lastOf { base with
        offset, workspaceOffsets := base.workspaceOffsets.insert workspace last } other kind =
      base.lastOf other kind + (⟨workspace, 1, 0, 0⟩ : Load).share other kind := by
  have hoffsetNat := Serial.toNat_of_next? hoffset
  have hlastNat := Serial.toNat_of_next? hlast
  rw [reserved_eq_setLast, Counters.lastOf_setLast, Counters.lastOf_setLast]
  rcases kind with _ | _ | _ | _
  · simp [Load.share, hoffsetNat, Counters.lastOf_offset]
  · by_cases hhere : workspace = other
    · subst hhere
      simp [Load.share, hlastNat, Counters.lastOf_workspaceOffset]
    · simp [Load.share, hhere]
  · simp [Load.share]
  · simp [Load.share]

/-- A sequencer that is ready hands out all the numbers of an event. -/
theorem allocate_single (hlined : Lined tasks) (hidle : s.IsIdle) (hstatus : s.status = .ready)
    (hserving : s.isStopping = false) (load : Load) (patience : Nat)
    (hroom : ∀ workspace kind,
      s.counters.lastOf workspace kind + load.share workspace kind < 2 ^ 64) :
    ∃ allocation usage counters, allocation.ordinaryIds.length = load.ordinary ∧
      allocation.compactingIds.length = load.compacting ∧
      (∀ time, (allocation.toEvent load.workspace time).Fits usage) ∧
      Drafted s.counters usage counters ∧
      (∀ workspace kind, counters.lastOf workspace kind =
        s.counters.lastOf workspace kind + load.share workspace kind) ∧
      (single clock store log s tasks (lineUp s)).allocate 0 load.workspace patience load.ordinary
          load.compacting =
        (.ok (some allocation), single clock store log
          { s with status := .eventing, workspace := load.workspace, counters } tasks
          (lineUp s)) := by
  obtain ⟨offset, last, hoffset, hlast⟩ := exists_next_offsets hroom
  let started : Sequencer := { s with
    workspace := load.workspace
    status := .eventing
    counters := { s.counters with
      offset, workspaceOffsets := s.counters.workspaceOffsets.insert load.workspace last } }
  have hidle' : started.IsIdle := ⟨hidle.worker, hidle.isOpen, hidle.isKept⟩
  have hstarts : (single clock store log s tasks (lineUp s)).perform 0
      (.start load.workspace patience) =
        (some (.started (some (offset, last))), single clock store log started tasks
          (lineUp started)) :=
    perform_start clock store log hlined hidle hstatus hserving load.workspace patience
      (takeOffsets_eq_ok hoffset hlast) hidle' rfl
  have hreserved (workspace : WorkspaceId) (kind : SequenceKind) :
      started.counters.lastOf workspace kind = s.counters.lastOf workspace kind +
        (⟨load.workspace, 1, 0, 0⟩ : Load).share workspace kind :=
    lastOf_reserved hoffset hlast workspace kind
  have hordinaryRoom : started.counters.lastOf started.workspace (.id .ordinary) + load.ordinary <
      2 ^ 64 := by
    have hfree := hroom load.workspace (.id .ordinary)
    rw [hreserved]
    simpa [Load.share, started] using hfree
  obtain ⟨ordinaryIds, middle, hordinary, hdrafted, hmiddle, htakesOrdinary⟩ :=
    takeIds_single clock store log hlined hidle' rfl (drafted_reserve hoffset hlast) rfl .ordinary
      hordinaryRoom
  have hcompactingRoom : middle.lastOf load.workspace (.id .compacting) + load.compacting <
      2 ^ 64 := by
    have hfree := hroom load.workspace (.id .compacting)
    rw [hmiddle, hreserved]
    simpa [Load.share] using hfree
  let halfway : Sequencer := { started with counters := middle }
  obtain ⟨compactingIds, counters, hcompacting, hdrafted', hcounters, htakesCompacting⟩ :=
    takeIds_single clock store log (s := halfway) hlined
      ⟨hidle.worker, hidle.isOpen, hidle.isKept⟩ rfl hdrafted rfl .compacting hcompactingRoom
  have hlineUp : lineUp halfway = lineUp started := rfl
  rw [hlineUp] at htakesCompacting
  refine ⟨⟨offset, last, ordinaryIds, compactingIds⟩, _, counters, hordinary, hcompacting,
    fun time ↦ ⟨rfl, rfl, rfl, ?_⟩, hdrafted', fun workspace kind ↦ ?_, ?_⟩
  · rw [Allocation.usedIds_toEvent]
    exact .refl _
  · rw [hcounters, hmiddle, hreserved]
    rcases kind with _ | _ | _ | _ <;> simp [Load.share, halfway, started]
  · rw [allocate, hstarts]
    dsimp only
    rw [htakesOrdinary]
    dsimp only
    rw [htakesCompacting]
    rfl

/-! ### After an event -/

variable {s' : Sequencer}

/-- The recovery task lines up after an event has been cancelled. -/
theorem enqueue_reopened (hlined : Lined tasks) (hidle : s'.IsIdle) (habsent : s.recovery = .absent)
    {failures : Nat} (hchecking : s'.recovery = .checking failures)
    (hsame : s'.flusher.handedOff? = s.flusher.handedOff?) :
    (single clock store log s' tasks (lineUp s)).enqueue =
      single clock store log s' tasks (lineUp s') := by
  have hlineUp : lineUp s' = lineUp s ++ [.recovery 0] := by
    simp [lineUp, hsame, habsent, hchecking, RecoveryTask.isAbsent]
  have hqueue : .recovery 0 ∉ lineUp s := by
    cases hbatch : s.flusher.handedOff? <;> simp [lineUp, hbatch, habsent, RecoveryTask.isAbsent]
  have hworker : .worker 0 ∈ lineUp s ∨ s'.workerStep? clock false store = none := by
    cases hbatch : s.flusher.handedOff? with
    | none => exact Or.inr (Sequencer.workerStep?_eq_none hidle (hsame.trans hbatch))
    | some batch => exact Or.inl (by simp [lineUp, hbatch])
  rw [hlineUp]
  refine enqueue_recovery hlined hqueue hworker ?_
  simp [Sequencer.recoveryStep?, hchecking]

end Engine

end LogSequencing
