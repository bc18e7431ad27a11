import LogSequencing.Proofs.Life.Serving

/-!
# What holds whatever happens

Crashes, shutdowns and cancelled events in the log can leave a checkpoint behind that does not cover
all committed events. But nothing that is stored, on its way to the store, or allocated from is ever
ahead of the log (`Life.Sound.run_confined`), and a recovery always finds the last offset of the
partition (`bounded_replayed`).
-/

set_option autoImplicit false
set_option relaxedAutoImplicit false

namespace LogSequencing

theorem Counters.Below.merge {batch : Batch} {counters other : Counters}
    (h : batch.last.Below other) (hcounters : counters.Below other) (workspace : WorkspaceId) :
    (batch.merge (counters.leaving workspace)).last.Below other := by
  intro at_ kind
  rw [Counters.lastOf, Batch.kept?_merge]
  split_ifs with hhere
  · have hnumber := Counters.toNat_number_leaving counters workspace kind
    rw [Option.getD_some, hnumber]
    rcases hhere with rfl | rfl
    · exact hcounters at_ .offset
    · exact hcounters workspace kind
  · exact h at_ kind

theorem Counters.Below.putRows {batch : Batch} {counters other : Counters}
    (h : counters.Below other) (hbatch : batch.last.Below other) :
    (batch.putRows counters).Below other := fun workspace kind ↦
  Batch.lastOf_putRows_le (h workspace kind) (hbatch workspace kind)

theorem Counters.empty_below (counters : Counters) : Counters.empty.Below counters :=
  fun workspace kind ↦ Counters.lastOf_empty workspace kind ▸ Nat.zero_le _

/-- A replay on a checkpoint that is not ahead of the log stays within its bounds. -/
theorem bounded_replayed {o : Outline} {checkpoint : Counters}
    (h : checkpoint.Below (observed o.events)) : Bounded (o.replayed checkpoint) o.events where
  below workspace kind := by
    refine (Counters.lastOf_observeAll_le_iff ..).mpr ⟨h workspace kind, fun event hevent ↦ ?_⟩
    exact fun taken ↦ Counters.taken_le_observeAll _ (List.mem_filter.mp hevent).1
  offset_le := by
    refine (Counters.lastOf_observeAll_le_iff .empty o.events .null .offset _).mpr
      ⟨Nat.zero_le _, fun event hevent taken htakes ↦ ?_⟩
    obtain rfl : taken = event.offset.val.toNat := htakes
    by_cases hvisited : checkpoint.offset ≤ event.offset
    · exact Counters.offset_le_observeAll checkpoint
        (List.mem_filter.mpr ⟨hevent, decide_eq_true hvisited⟩)
    · have hlt : event.offset.val.toNat < checkpoint.offset.val.toNat :=
        UInt64.lt_iff_toNat_lt.mp (UInt64.not_le.mp hvisited)
      exact hlt.le.trans (Counters.below_observeAll checkpoint _ .null .offset)

/-- Nothing is ahead of the log. -/
structure Confined (partition : PartitionId) (o : Outline) : Prop where
  grounded : Grounded o.events
  serves : Serves Bounded o
  stored : ∃ checkpoint, Checkpoint.Stores o.rows partition checkpoint ∧
    checkpoint.Below (observed o.events)
  pending : o.pending.last.Below (observed o.events)
  carried : ∀ batch ∈ o.carried, batch.last.Below (observed o.events)

variable {partition : PartitionId} {o after : Outline}

/-- What a read of the checkpoint finds is what is stored. -/
theorem Confined.read (h : Confined partition o) {checkpoint : Counters}
    (hread : (Checkpoint.readPartition o.rows partition).1 = .ok checkpoint) :
    checkpoint.Below (observed o.events) := by
  obtain ⟨stored, hstores, hbelow⟩ := h.stored
  rw [hstores.readPartition_eq] at hread
  exact Except.ok.inj hread ▸ hbelow

theorem Confined.move (h : Confined partition o) (hmove : Move partition o after) :
    Confined partition after := by
  have hserves := h.serves.move agreement_bounded h.grounded hmove
    fun _ checkpoint _ hread ↦ bounded_replayed (h.read hread)
  have hmerged : ∀ usage, o.draft? = some ⟨usage, true⟩ →
      (o.pending.merge (o.counters.leaving o.workspace)).last.Below (observed o.events) :=
    fun usage hdraft ↦
      h.pending.merge (h.serves.committed usage hdraft).2.2.2.below o.workspace
  cases hmove with
  | commit event usage hdraft hfits =>
    obtain ⟨-, -, -, base, hbase, hdrafted⟩ := h.serves.drafting usage hdraft
    have hgrows := observed_below_append o.events [event]
    obtain ⟨checkpoint, hstores, hbelow⟩ := h.stored
    exact ⟨h.grounded.commit hbase hdrafted hfits, hserves,
      ⟨checkpoint, hstores, hbelow.trans hgrows⟩, h.pending.trans hgrows,
      fun batch hbatch ↦ (h.carried batch hbatch).trans hgrows⟩
  | finish usage hstopping hdraft =>
    exact ⟨h.grounded, hserves, h.stored, hmerged usage hdraft, h.carried⟩
  | finishAndSend usage hstopping hdraft hactive =>
    refine ⟨h.grounded, hserves, h.stored, Counters.empty_below _, fun batch hbatch ↦ ?_⟩
    rw [List.mem_singleton.mp hbatch]
    exact hmerged usage hdraft
  | land batch hcarried =>
    obtain ⟨checkpoint, hstores, hbelow⟩ := h.stored
    refine ⟨h.grounded, hserves, ⟨_, hstores.insertAll fun row ↦ Batch.isPlaced_of_mem_rows, ?_⟩,
      h.pending, nofun⟩
    exact hbelow.putRows (h.carried batch (hcarried ▸ List.mem_cons_self))
  | abandon batch hstopping hcarried => exact ⟨h.grounded, hserves, h.stored, h.pending, nofun⟩
  | send hstopping hcount hactive =>
    refine ⟨h.grounded, hserves, h.stored, Counters.empty_below _, fun batch hbatch ↦ ?_⟩
    rw [List.mem_singleton.mp hbatch]
    exact h.pending
  | _ => exact ⟨h.grounded, hserves, h.stored, h.pending, h.carried⟩

theorem Confined.lapse (h : Confined partition o) (hlapse : Lapse o after) :
    Confined partition after := by
  have hserves : Serves Bounded after := Serves.lapse hlapse
  cases hlapse with
  | crash => exact ⟨h.grounded, hserves, h.stored, Counters.empty_below _, nofun⟩
  | cancelCommitted usage hdraft => exact ⟨h.grounded, hserves, h.stored, h.pending, h.carried⟩

namespace Life

variable {β : Type} [Backend β] [LawfulBackend β] {life : Life β}

theorem confined_start {store : Faulty β} {log : MemoryLog} {partition : PartitionId}
    (hstore : Checkpoint.Stores store.rows partition .empty) (hlog : log.events partition = [])
    (config : Config) : Confined partition (start store log partition config).outline := by
  have hevents : (start store log partition config).outline.events = [] := hlog
  exact ⟨hevents ▸ grounded_nil, serves_between rfl nofun nofun nofun nofun,
    ⟨.empty, hstore, Counters.empty_below _⟩, Counters.empty_below _, nofun⟩

/-- Nothing is ever ahead of the log. -/
theorem Sound.run_confined (h : life.Sound) (hconfined : Confined life.partition life.outline)
    (actions : List Action) :
    (life.run actions).partition = life.partition ∧ (life.run actions).Sound ∧
      Confined life.partition (life.run actions).outline :=
  h.run hconfined actions Confined.move fun _ ↦ Confined.lapse

/-- A recovery that meets no failure comes to what a replay on the stored counters comes to. -/
theorem recovered_eq {checkpoint : Counters}
    (hstores : Checkpoint.Stores life.store.rows life.partition checkpoint) :
    life.recovered = .ok (life.outline.replayed checkpoint) := by
  obtain ⟨after, -, ⟨error, hspend, -⟩ | hread⟩ :=
    Checkpoint.readPartition_cases life.store.heal life.partition
  · exact absurd rfl hspend
  · rw [Faulty.rows_heal, hstores.readPartition_eq] at hread
    obtain ⟨log, -, ⟨error, hfailing, -⟩ | hvisit⟩ := MemoryLog.readFrom_cases
      { life.log with failingReads := 0 } life.partition checkpoint.offset
    · exact absurd rfl hfailing
    · simp only [recovered, Checkpoint.replay, hread, hvisit, Checkpoint.observeReading]
      rfl

end Life

end LogSequencing
