import LogSequencing.Proofs.Checkpoint.Batch
import LogSequencing.Flusher

/-!
# What the flusher carries

A batch that was handed off is in the place between client and worker, or in the worker's hands
(`Flusher.carried`). `Flusher.WorkerMove` says once what a step of the worker can do, and
`Flusher.Delivery` what becomes of the batches carried. A sound flusher carries nothing while its
flag is down, so that handing off a batch then finds the place free (`Flusher.Sound.handOff_eq`).
-/

set_option autoImplicit false
set_option relaxedAutoImplicit false

namespace LogSequencing

/-- The batch that the worker has taken and is not yet through with. -/
def Worker.inHand : Worker → List Batch
  | writing batch _ | backingOff batch _ _ => [batch]
  | idle | clearing | gone => []

namespace Flusher

/-- The batches handed off that the worker is not yet through with. -/
def carried (flusher : Flusher) : List Batch :=
  flusher.worker.inHand ++ flusher.handedOff?.toList

/-- How the flag, the place for a batch and the worker go together while the flusher is in use. -/
structure Sound (flusher : Flusher) : Prop where
  active_of_working : flusher.worker ≠ .idle → flusher.worker ≠ .gone → flusher.active = true
  active_of_handedOff : flusher.handedOff? ≠ none → flusher.active = true
  idle_of_handedOff : flusher.handedOff? ≠ none → flusher.worker = .idle
  closed_of_gone : flusher.worker = .gone → flusher.isOpen = false

theorem sound_start : start.Sound where
  active_of_working hidle := absurd rfl hidle
  active_of_handedOff hsome := absurd rfl hsome
  idle_of_handedOff hsome := absurd rfl hsome
  closed_of_gone hgone := nomatch hgone

variable {flusher : Flusher}

theorem Sound.nothing_handedOff (h : flusher.Sound) (hworker : flusher.worker ≠ .idle) :
    flusher.handedOff? = none := by
  by_contra hsome
  exact hworker (h.idle_of_handedOff hsome)

/-! ### Steps of the worker -/

/-- What a step of the worker can do while somebody holds the flusher. -/
inductive WorkerMove {β : Type} [Backend β] (partition : PartitionId) (isStopping : Bool)
    (flusher : Flusher) (store : β) : Flusher → β → Prop where
  | take (batch : Batch) (hworker : flusher.worker = .idle)
      (hbatch : flusher.handedOff? = some batch) :
      WorkerMove partition isStopping flusher store
        { flusher with handedOff? := none, worker := .writing batch 0 } store
  | leave (hworker : flusher.worker = .idle) (hplace : flusher.handedOff? = none)
      (hclosed : flusher.isOpen = false) :
      WorkerMove partition isStopping flusher store { flusher with worker := .gone } store
  | land (batch : Batch) (failures : Nat) (after : β)
      (hworker : flusher.worker = .writing batch failures)
      (hwrite : Checkpoint.putBatch store partition batch.rows = (.ok (), after)) :
      WorkerMove partition isStopping flusher store { flusher with worker := .clearing } after
  | fail (batch : Batch) (failures wake : Nat) (error : StorageError) (after : β)
      (hgoing : isStopping = false) (hworker : flusher.worker = .writing batch failures)
      (hwrite : Checkpoint.putBatch store partition batch.rows = (.error error, after)) :
      WorkerMove partition isStopping flusher store
        { flusher with worker := .backingOff batch (failures + 1) wake } after
  | abandon (batch : Batch) (failures : Nat) (error : StorageError) (after : β)
      (hstopping : isStopping = true) (hworker : flusher.worker = .writing batch failures)
      (hwrite : Checkpoint.putBatch store partition batch.rows = (.error error, after)) :
      WorkerMove partition isStopping flusher store { flusher with worker := .clearing } after
  | retry (batch : Batch) (failures wake : Nat)
      (hworker : flusher.worker = .backingOff batch failures wake) :
      WorkerMove partition isStopping flusher store
        { flusher with worker := .writing batch failures } store
  | lower (hworker : flusher.worker = .clearing) :
      WorkerMove partition isStopping flusher store
        { flusher with active := false, worker := .idle } store

variable {β : Type} [Backend β] {partition : PartitionId} {after : Flusher}
  {store left : β} {config : Config} {signals : Signals} {isStopping : Bool}

theorem workerMove_of_step
    (h : flusher.workerStep? config partition signals store = some (after, left))
    (hheld : signals.isReleased = false) :
    WorkerMove partition signals.isStopping flusher store after left := by
  unfold workerStep? at h
  cases hworker : flusher.worker with
  | idle =>
    simp only [hworker] at h
    cases hplace : flusher.handedOff? with
    | some batch =>
      simp only [hplace, Option.some.injEq, Prod.mk.injEq] at h
      obtain ⟨rfl, rfl⟩ := h
      exact .take batch hworker hplace
    | none =>
      simp only [hplace, hheld, Bool.false_eq_true, or_false, Bool.not_eq_true] at h
      split_ifs at h with hclosed
      simp only [Option.some.injEq, Prod.mk.injEq] at h
      obtain ⟨rfl, rfl⟩ := h
      rw [← hplace]
      exact .leave hworker hplace hclosed
  | writing batch failures =>
    simp only [hworker] at h
    rcases hwrite : Checkpoint.putBatch store partition batch.rows with ⟨_ | _, written⟩
    · simp only [hwrite, Option.some.injEq, Prod.mk.injEq] at h
      obtain ⟨rfl, rfl⟩ := h
      split_ifs with hstopping
      · exact .abandon batch failures _ _ hstopping hworker hwrite
      · exact .fail batch failures _ _ _ (Bool.eq_false_iff.mpr hstopping) hworker hwrite
    · simp only [hwrite, Option.some.injEq, Prod.mk.injEq] at h
      obtain ⟨rfl, rfl⟩ := h
      exact .land batch failures _ hworker hwrite
  | backingOff batch failures wake =>
    simp only [hworker] at h
    split_ifs at h
    simp only [Option.some.injEq, Prod.mk.injEq] at h
    obtain ⟨rfl, rfl⟩ := h
    exact .retry batch failures wake hworker
  | clearing =>
    simp only [hworker, Option.some.injEq, Prod.mk.injEq] at h
    obtain ⟨rfl, rfl⟩ := h
    exact .lower hworker
  | gone => simp only [hworker, reduceCtorEq] at h

theorem WorkerMove.sound (h : WorkerMove partition isStopping flusher store after left)
    (hsound : flusher.Sound) : after.Sound := by
  have hnothing := hsound.nothing_handedOff
  obtain ⟨hworking, hplace, hidle, hgone⟩ := hsound
  cases h with
  | take batch hworker hbatch =>
    exact ⟨fun _ _ ↦ hplace (by simp [hbatch]), nofun, nofun, nofun⟩
  | leave hworker hnone hclosed =>
    exact ⟨fun _ h ↦ absurd rfl h, fun h ↦ absurd hnone h, fun h ↦ absurd hnone h, fun _ ↦ hclosed⟩
  | land _ _ _ hworker _
  | fail _ _ _ _ _ _ hworker _
  | abandon _ _ _ _ _ hworker _
  | retry _ _ _ hworker =>
    refine ⟨fun _ _ ↦ hworking (by simp [hworker]) (by simp [hworker]), hplace, fun h ↦ ?_, nofun⟩
    exact absurd (hidle h) (by simp [hworker])
  | lower hworker =>
    have hnone := hnothing (by simp [hworker])
    exact ⟨fun h ↦ absurd rfl h, fun h ↦ absurd hnone h, fun h ↦ absurd hnone h, nofun⟩

/-- The worker touches neither the pending batch nor the place where batches come from. -/
theorem WorkerMove.keeps (h : WorkerMove partition isStopping flusher store after left) :
    after.pending = flusher.pending ∧ after.isOpen = flusher.isOpen := by
  cases h <;> exact ⟨rfl, rfl⟩

/-- While the flag is down nothing is carried. -/
theorem Sound.resting (h : flusher.Sound) (hactive : flusher.active = false) :
    flusher.handedOff? = none ∧ flusher.worker.inHand = [] := by
  constructor
  · by_contra hsome
    exact absurd (h.active_of_handedOff hsome) (by simp [hactive])
  · have hworking := h.active_of_working
    cases hworker : flusher.worker <;> simp_all [Worker.inHand]

theorem Sound.carried_eq_nil (h : flusher.Sound) (hactive : flusher.active = false) :
    flusher.carried = [] := by
  obtain ⟨hplace, hhand⟩ := h.resting hactive
  rw [carried, hplace, hhand]
  rfl

/-- While a batch is written, no other is carried. -/
theorem Sound.carried_of_writing (h : flusher.Sound) {batch : Batch} {failures : Nat}
    (hworker : flusher.worker = .writing batch failures) :
    flusher.carried = [batch] ∧ flusher.handedOff? = none := by
  have hnone := h.nothing_handedOff (by simp [hworker])
  rw [carried, hworker, hnone]
  exact ⟨rfl, rfl⟩

/-- What a step of the worker means for the batches carried: one lands, or is given up after a
shutdown, or they stay. -/
inductive Delivery {β : Type} [Backend β] (partition : PartitionId) (isStopping : Bool)
    (flusher : Flusher) (store : β) (after : Flusher) (left : β) : Prop where
  | land (batch : Batch) (failures : Nat) (hworker : flusher.worker = .writing batch failures)
      (hwrite : Checkpoint.putBatch store partition batch.rows = (.ok (), left))
      (hbefore : flusher.carried = [batch]) (hafter : after.carried = [])
      (hactive : after.active = flusher.active)
  | abandon (batch : Batch) (failures : Nat) (error : StorageError) (hstopping : isStopping = true)
      (hworker : flusher.worker = .writing batch failures)
      (hwrite : Checkpoint.putBatch store partition batch.rows = (.error error, left))
      (hbefore : flusher.carried = [batch]) (hafter : after.carried = [])
      (hactive : after.active = flusher.active)
  | retain
      (hwriting : ∀ batch failures, flusher.worker = .writing batch failures →
        isStopping = false ∧
          ∃ error, Checkpoint.putBatch store partition batch.rows = (.error error, left))
      (hstore : left = store ∨
        ∃ rows error, Checkpoint.putBatch store partition rows = (.error error, left))
      (hcarried : after.carried = flusher.carried)
      (hactive : after.active = flusher.active ∨ after.active = false ∧ flusher.carried = [])

/-- Where nothing is written, the batches stay. -/
theorem Delivery.rest (hworker : ∀ batch failures, flusher.worker ≠ .writing batch failures)
    (hcarried : after.carried = flusher.carried)
    (hactive : after.active = flusher.active ∨ after.active = false ∧ flusher.carried = []) :
    Delivery partition isStopping flusher store after store :=
  .retain (fun batch failures hwriting ↦ absurd hwriting (hworker batch failures)) (Or.inl rfl)
    hcarried hactive

theorem carried_congr (hhand : after.worker.inHand = flusher.worker.inHand)
    (hplace : after.handedOff? = flusher.handedOff?) : after.carried = flusher.carried := by
  rw [carried, carried, hhand, hplace]

theorem WorkerMove.delivery (h : WorkerMove partition isStopping flusher store after left)
    (hsound : flusher.Sound) : Delivery partition isStopping flusher store after left := by
  cases h with
  | take batch hworker hbatch =>
    refine .rest (by simp [hworker]) ?_ (Or.inl rfl)
    rw [carried, carried, hworker, hbatch]
    rfl
  | leave hworker =>
    exact .rest (by simp [hworker]) (carried_congr (by rw [hworker]; rfl) rfl) (Or.inl rfl)
  | land batch failures _ hworker hwrite =>
    obtain ⟨hbefore, hnone⟩ := hsound.carried_of_writing hworker
    refine .land batch failures hworker hwrite hbefore ?_ rfl
    rw [carried, hnone]
    rfl
  | fail batch failures wake error _ hgoing hworker hwrite =>
    refine .retain ?_ (Or.inr ⟨batch.rows, error, hwrite⟩)
      (carried_congr (by rw [hworker]; rfl) rfl) (Or.inl rfl)
    rintro other _ hother
    obtain ⟨rfl, rfl⟩ := Worker.writing.inj (hworker.symm.trans hother)
    exact ⟨hgoing, error, hwrite⟩
  | abandon batch failures error _ hstopping hworker hwrite =>
    obtain ⟨hbefore, hnone⟩ := hsound.carried_of_writing hworker
    refine .abandon batch failures error hstopping hworker hwrite hbefore ?_ rfl
    rw [carried, hnone]
    rfl
  | retry batch failures wake hworker =>
    exact .rest (by simp [hworker]) (carried_congr (by rw [hworker]; rfl) rfl) (Or.inl rfl)
  | lower hworker =>
    have hcarried : flusher.carried = [] := by
      rw [carried, hworker, hsound.nothing_handedOff (by simp [hworker])]
      rfl
    exact .rest (by simp [hworker]) (carried_congr (by rw [hworker]; rfl) rfl)
      (Or.inr ⟨rfl, hcarried⟩)

/-! ### Handing off -/

/-- A sound flusher that is open and whose flag is down can only send. -/
theorem Sound.handOff_eq (h : flusher.Sound) (hopen : flusher.isOpen = true)
    (hactive : flusher.active = false) :
    flusher.handOff = (.sent, { flusher with
      pending := .empty, active := true, handedOff? := some flusher.pending }) := by
  have hworker : flusher.worker ≠ .gone := fun hgone ↦ by simp [h.closed_of_gone hgone] at hopen
  simp only [handOff, hopen, hworker, (h.resting hactive).1, not_true_eq_false, if_false]

theorem Sound.carried_send (h : flusher.Sound) (hactive : flusher.active = false)
    (batch : Batch) : carried { flusher with
      pending := .empty, active := true, handedOff? := some batch } = [batch] := by
  rw [carried, (h.resting hactive).2]
  rfl

theorem Sound.send (h : flusher.Sound) (hopen : flusher.isOpen = true)
    (hactive : flusher.active = false) :
    Sound { flusher with
      pending := .empty, active := true, handedOff? := some flusher.pending } where
  active_of_working _ _ := rfl
  active_of_handedOff _ := rfl
  idle_of_handedOff _ := by
    have hworking := h.active_of_working
    have hgone := h.closed_of_gone
    cases hworker : flusher.worker <;> simp_all
  closed_of_gone := h.closed_of_gone

theorem of_tryHandOff_busy {after : Flusher} (h : flusher.tryHandOff = (.busy, after)) :
    flusher.active = true ∧ flusher = after := by
  unfold Flusher.tryHandOff at h
  split_ifs at h with hnothing hactive
  · nomatch (Prod.mk.inj h).1
  · exact ⟨hactive, (Prod.mk.inj h).2⟩
  · nomatch (Prod.mk.inj h).1

/-- A sound flusher that is open stays so when an event is collected. -/
theorem Sound.collect (h : flusher.Sound) (hopen : flusher.isOpen = true) (threshold : Nat)
    (event : FinishedEvent) :
    (flusher.collect threshold event).Sound ∧
      (flusher.collect threshold event).isOpen = true := by
  have hmerged : Sound { flusher with pending := flusher.pending.merge event } :=
    ⟨h.active_of_working, h.active_of_handedOff, h.idle_of_handedOff, h.closed_of_gone⟩
  unfold Flusher.collect
  dsimp only
  split_ifs with hdue
  · have hactive := Bool.eq_false_iff.mpr hdue.2
    rw [hmerged.handOff_eq hopen hactive]
    exact ⟨hmerged.send hopen hactive, hopen⟩
  · exact ⟨hmerged, hopen⟩

end Flusher

end LogSequencing
