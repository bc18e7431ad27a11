import LogSequencing.Proofs.Flusher.Session
import LogSequencing.Storage.Faulty
import Mathlib.Algebra.GroupWithZero.Nat
import Mathlib.Algebra.Order.BigOperators.Group.List
import Mathlib.Algebra.Order.Group.Nat

/-!
# What the threshold does

What the callers and the worker of a flusher in use can do to the pending batch is told once
(`Flusher.Session.Turn`).

Without explicit flushes only full batches are handed off (`Flusher.Session.Filled`), so that the
writes are few: after `n` events at most `n / threshold` batches have been handed off, and just as
many if each event finds the worker at rest (`Flusher.Session.run_amortized`).

Only callers look at the threshold. Events collected while a flush is in flight may therefore fill
the batch and stay pending once the flag has been lowered; a full batch stays behind in no other way
(`Flusher.Session.run_full_iff`).
-/

set_option autoImplicit false
set_option relaxedAutoImplicit false

namespace LogSequencing

namespace Flusher

namespace Session

variable {β : Type} {session after : Session β} {threshold : Nat} {action : Action β}

/-! ### What an action can do to the pending batch -/

inductive Turn (threshold : Nat) (session : Session β) (action : Action β) : Session β → Prop where
  | merge (event : FinishedEvent) (haction : action = .collect event)
      (hfree : session.lock = .free) :
      Turn threshold session action { session with
        flusher := { session.flusher with pending := session.flusher.pending.merge event }
        lock := .merged
        collected := session.collected ++ [event] }
  /-- A collecting call has found a full batch and the flag down. -/
  | resolve (hmerged : session.lock = .merged) (hfull : threshold ≤ session.flusher.pending.count)
      (hdown : session.flusher.active = false) :
      Turn threshold session action { session with lock := .handingOff none }
  | release (hmerged : session.lock = .merged)
      (hbusy : threshold ≤ session.flusher.pending.count → session.flusher.active = true) :
      Turn threshold session action { session with lock := .free }
  /-- A flush call has found something pending and the flag down. -/
  | claim (call : Nat) (calls : List FlushCall) (hcall : call < session.calls.length) :
      Turn threshold session action { session with lock := .handingOff (some call), calls }
  | send (call? : Option Nat) (calls : List FlushCall) (hlock : session.lock = .handingOff call?) :
      Turn threshold session action { session with
        flusher := session.flusher.handOff.2
        lock := .free
        calls
        handOffs := session.handOffs ++ [(session.flusher.handOff.1, session.flusher.pending)] }
  | work (flusher : Flusher) (store : β) (landed : List Batch) (haction : action = .work)
      (hpending : flusher.pending = session.flusher.pending)
      (hactive : flusher.active = session.flusher.active ∨
        session.flusher.worker = .clearing ∧ flusher.active = false) :
      Turn threshold session action { session with flusher, store, landed }
  | pass (calls : List FlushCall) (clock : Nat) (store : β) :
      Turn threshold session action { session with calls, clock, store }

theorem turn_handOff : Turn threshold session action session.handOff := by
  unfold handOff
  split
  case h_1 call? hlock => cases call? <;> exact .send _ _ hlock
  case h_2 => exact .pass _ _ _

theorem turn_advance (number : Nat) : Turn threshold session action (session.advance number) := by
  unfold advance
  split
  · split_ifs <;> exact .pass _ _ _
  case h_2 hphase =>
    obtain ⟨call, hcall, -⟩ := Option.map_eq_some_iff.mp hphase
    have hbound : number < session.calls.length := (List.getElem?_eq_some_iff.mp hcall).1
    unfold tryHandOff
    split
    · split_ifs
      · exact .pass _ _ _
      · exact .pass _ _ _
      · exact .claim number _ hbound
    · exact .pass _ _ _
  · split_ifs <;> exact .pass _ _ _
  · exact .pass _ _ _

theorem Turn.prefix_handOffs (h : Turn threshold session action after) :
    session.handOffs <+: after.handOffs := by
  cases h with
  | send => exact List.prefix_append _ _
  | _ => exact List.prefix_refl _

theorem Turn.landed_eq (h : Turn threshold session action after) (haction : action ≠ .work) :
    after.landed = session.landed := by
  cases h with
  | work _ _ _ hwork => exact absurd hwork haction
  | _ => rfl

/-- The events collected are counted in the batches handed off and the pending one. -/
theorem Account.length_collected {done : List (List FinishedEvent)}
    {flight? : Option (List FinishedEvent)} {waiting : List FinishedEvent}
    (h : Account session done flight? waiting) :
    session.collected.length =
      (session.handOffs.map fun handOff ↦ handOff.2.count).sum + session.flusher.pending.count := by
  have hcounts : (fun handOff : HandOff × Batch ↦ handOff.2.count) ∘
      (fun events ↦ (HandOff.sent, Batch.ofEvents events)) = List.length :=
    funext fun events ↦ Batch.count_ofEvents events
  rw [h.collected, h.handOffs, h.pending, Batch.count_ofEvents, List.map_map, hcounts,
    List.map_append, List.sum_append, List.length_append, List.length_append, List.length_flatten]
  cases flight? <;> simp

section

variable [Backend β]

theorem turn_of_act (config : Config) (partition : PartitionId) (session : Session β)
    (action : Action β) :
    Turn config.flushThreshold.toNat session action (session.act config partition action) := by
  cases action with
  | collect event =>
    unfold act collect
    dsimp only
    split
    case h_1 hfree => exact .merge event rfl hfree
    case h_2 => exact .pass _ _ _
  | look =>
    unfold act look
    dsimp only
    split
    case h_1 hmerged =>
      split_ifs with hdue
      · exact .resolve hmerged hdue.1 (Bool.eq_false_iff.mpr hdue.2)
      · exact .release hmerged fun hfull ↦ by_contra fun hdown ↦ hdue ⟨hfull, hdown⟩
    case h_2 => exact .pass _ _ _
  | handOff => exact turn_handOff
  | advance number => exact turn_advance number
  | work =>
    unfold act work
    dsimp only
    cases hstep : session.flusher.workerStep? config partition ⟨session.clock, false, false⟩
      session.store with
    | none => exact .pass _ _ _
    | some result =>
      obtain ⟨flusher, store⟩ := result
      have hmove := workerMove_of_step hstep rfl
      refine .work _ _ _ rfl hmove.keeps.1 ?_
      cases hmove with
      | lower hworker => exact Or.inr ⟨hworker, rfl⟩
      | _ => exact Or.inl rfl
  | flush | wait | exchange => exact .pass _ _ _

/-! ### Writes -/

/-- The write that an action makes, if it makes one, and how it ends. -/
def writes (partition : PartitionId) (session : Session β) :
    Action β → List (Batch × Except StorageError Unit)
  | .work =>
    match session.flusher.worker with
    | .writing batch _ => [(batch, (Checkpoint.putBatch session.store partition batch.rows).1)]
    | _ => []
  | _ => []

/-- The writes of a run, in order. -/
def runWrites (config : Config) (partition : PartitionId) :
    Session β → List (Action β) → List (Batch × Except StorageError Unit)
  | _, [] => []
  | session, action :: actions =>
    session.writes partition action ++
      runWrites config partition (session.act config partition action) actions

variable {config : Config} {partition : PartitionId} {actions : List (Action β)}
  {done : List (List FinishedEvent)} {flight? : Option (List FinishedEvent)}
  {waiting : List FinishedEvent}

/-- A batch has landed if its write succeeded. -/
theorem landed_act (config : Config) (partition : PartitionId) (session : Session β)
    (action : Action β) :
    (session.act config partition action).landed =
      session.landed ++ ((session.writes partition action).filter (·.2.isOk)).map Prod.fst := by
  by_cases haction : action = .work
  · subst haction
    unfold act work writes landing
    dsimp only
    cases hworker : session.flusher.worker with
    | writing batch failures =>
      rcases hwrite : Checkpoint.putBatch session.store partition batch.rows with ⟨_ | _, store⟩ <;>
        simp [workerStep?, hworker, hwrite, Except.isOk, Except.toBool]
    | _ =>
      cases session.flusher.workerStep? config partition ⟨session.clock, false, false⟩
        session.store <;> simp
  · have hwrites : session.writes partition action = [] := by
      cases action with
      | work => exact absurd rfl haction
      | _ => rfl
    rw [hwrites, (turn_of_act config partition session action).landed_eq haction]
    simp

theorem landed_run (config : Config) (partition : PartitionId) (session : Session β)
    (actions : List (Action β)) :
    (session.run config partition actions).landed = session.landed ++
      ((session.runWrites config partition actions).filter (·.2.isOk)).map Prod.fst := by
  induction actions generalizing session with
  | nil => simp [run, runWrites]
  | cons action actions ih =>
    have hrest := ih (session.act config partition action)
    rw [landed_act, List.append_assoc, ← List.map_append, ← List.filter_append] at hrest
    exact hrest

/-- Before a batch is handed off there is nothing to write. -/
theorem Account.writes_eq_nil (h : Account session done flight? waiting)
    (hnone : session.handOffs = []) (action : Action β) : session.writes partition action = [] := by
  have hflight : flight? = none := by
    have hhandOffs := h.handOffs.symm.trans hnone
    rw [List.map_eq_nil_iff, List.append_eq_nil_iff] at hhandOffs
    exact Option.toList_eq_nil_iff.mp hhandOffs.2
  have hcarried := h.carried
  rw [hflight, Flusher.carried] at hcarried
  unfold writes
  split
  · cases hworker : session.flusher.worker with
    | writing batch failures =>
      rw [hworker] at hcarried
      exact absurd hcarried (List.cons_ne_nil _ _)
    | _ => rfl
  · rfl

theorem prefix_handOffs_run (config : Config) (partition : PartitionId) (session : Session β)
    (actions : List (Action β)) :
    session.handOffs <+: (session.run config partition actions).handOffs := by
  induction actions generalizing session with
  | nil => exact List.prefix_refl _
  | cons action actions ih =>
    exact (turn_of_act config partition session action).prefix_handOffs.trans (ih _)

theorem Steady.runWrites_eq_nil (h : Steady session done flight? waiting)
    (hnone : (session.run config partition actions).handOffs = []) :
    session.runWrites config partition actions = [] := by
  induction actions generalizing session done flight? waiting with
  | nil => rfl
  | cons action actions ih =>
    obtain ⟨done', flight?', waiting', hact⟩ := h.act config partition action
    have hgrow := prefix_handOffs_run config partition session (action :: actions)
    rw [hnone] at hgrow
    rw [runWrites, h.writes_eq_nil (List.prefix_nil.mp hgrow), ih hact hnone]
    rfl

end

/-! ### Full batches -/

/-- Only full batches are handed off, for nobody flushes. -/
structure Filled (threshold : Nat) (session : Session β) : Prop where
  full : ∀ handOff ∈ session.handOffs, threshold ≤ handOff.2.count
  ready : ∀ call?, session.lock = .handingOff call? → threshold ≤ session.flusher.pending.count
  calls : session.calls = []

theorem filled_start (threshold : Nat) (store : β) : Filled threshold (start store) :=
  ⟨fun _ hhandOff ↦ absurd hhandOff List.not_mem_nil, nofun, rfl⟩

theorem Filled.turn (h : session.Filled threshold) (hturn : Turn threshold session action after)
    (hcalls : after.calls = []) : after.Filled threshold := by
  cases hturn with
  | merge event haction hfree => exact ⟨h.full, nofun, hcalls⟩
  | resolve hmerged hfull hdown => exact ⟨h.full, fun _ _ ↦ hfull, hcalls⟩
  | release hmerged hbusy => exact ⟨h.full, nofun, hcalls⟩
  | claim call calls hcall =>
    rw [h.calls] at hcall
    exact absurd hcall (Nat.not_lt_zero call)
  | send call? calls hlock =>
    refine ⟨fun handOff hhandOff ↦ ?_, nofun, hcalls⟩
    rcases List.mem_append.mp hhandOff with hbefore | hsent
    · exact h.full handOff hbefore
    · rw [List.mem_singleton.mp hsent]
      exact h.ready call? hlock
  | work flusher store landed haction hpending =>
    exact ⟨h.full, fun call? hlock ↦ hpending ▸ h.ready call? hlock, hcalls⟩
  | pass => exact ⟨h.full, h.ready, hcalls⟩

/-- Batches are handed off as soon as they are full. -/
structure Prompt (threshold : Nat) (session : Session β) : Prop where
  full : ∀ handOff ∈ session.handOffs, handOff.2.count = threshold
  free : session.lock = .free → session.flusher.pending.count < threshold
  merged : session.lock = .merged →
    session.flusher.active = false ∧ session.flusher.pending.count ≤ threshold
  handingOff : ∀ call?, session.lock = .handingOff call? →
    session.flusher.pending.count = threshold

theorem prompt_start (hthreshold : 0 < threshold) (store : β) : Prompt threshold (start store) :=
  ⟨fun _ hhandOff ↦ absurd hhandOff List.not_mem_nil, fun _ ↦ hthreshold, nofun, nofun⟩

theorem Prompt.turn {done : List (List FinishedEvent)} {flight? : Option (List FinishedEvent)}
    {waiting : List FinishedEvent} (h : session.Prompt threshold)
    (hsteady : Steady session done flight? waiting) (hthreshold : 0 < threshold)
    (hcalls : session.calls = []) (hturn : Turn threshold session action after)
    (hrest : ∀ event, action = .collect event → session.lock = .free →
      session.flusher.active = false) :
    after.Prompt threshold := by
  cases hturn with
  | merge event haction hfree =>
    -- the batch was not yet full, so that the event makes it at most just full
    exact ⟨h.full, nofun, fun _ ↦ ⟨hrest event haction hfree, h.free hfree⟩, nofun⟩
  | resolve hmerged hfull hdown =>
    exact ⟨h.full, nofun, nofun, fun _ _ ↦ Nat.le_antisymm (h.merged hmerged).2 hfull⟩
  | release hmerged hbusy =>
    refine ⟨h.full, fun _ ↦ Nat.lt_of_not_le fun hfull ↦ ?_, nofun, nofun⟩
    exact absurd (hbusy hfull) (by simp [(h.merged hmerged).1])
  | claim call calls hcall =>
    rw [hcalls] at hcall
    exact absurd hcall (Nat.not_lt_zero call)
  | send call? calls hlock =>
    refine ⟨fun handOff hhandOff ↦ ?_, fun _ ↦ ?_, nofun, nofun⟩
    · rcases List.mem_append.mp hhandOff with hbefore | hsent
      · exact h.full handOff hbefore
      · rw [List.mem_singleton.mp hsent]
        exact h.handingOff call? hlock
    · rw [hsteady.sound.handOff_eq hsteady.isOpen (hsteady.down call? hlock)]
      exact hthreshold
  | work flusher store landed haction hpending hactive =>
    refine ⟨h.full, fun hlock ↦ hpending ▸ h.free hlock, fun hlock ↦ ?_,
      fun call? hlock ↦ hpending ▸ h.handingOff call? hlock⟩
    obtain ⟨hdown, hcount⟩ := h.merged hlock
    refine ⟨?_, hpending ▸ hcount⟩
    rcases hactive with hsame | ⟨-, hlowered⟩
    · exact hsame.trans hdown
    · exact hlowered
  | pass => exact ⟨h.full, h.free, h.merged, h.handingOff⟩

/-- The last event of each of some portions of the same length. -/
theorem getElem?_flatten_last {portions : List (List FinishedEvent)}
    (hlength : ∀ portion ∈ portions, portion.length = threshold) (waiting : List FinishedEvent)
    {i : Nat} {front : List FinishedEvent} {event : FinishedEvent}
    (hportion : portions[i]? = some (front ++ [event])) :
    (portions.flatten ++ waiting)[(i + 1) * threshold - 1]? = some event := by
  induction portions generalizing i with
  | nil => nomatch hportion
  | cons first portions ih =>
    rw [List.forall_mem_cons] at hlength
    obtain ⟨hfirst, hrest⟩ := hlength
    rw [List.flatten_cons, List.append_assoc]
    cases i with
    | zero =>
      obtain rfl := Option.some.inj hportion
      rw [List.length_append, List.length_singleton] at hfirst
      have hindex : threshold - 1 = front.length := by omega
      rw [Nat.zero_add, Nat.one_mul, hindex]
      simp
    | succ i =>
      have hpos : 0 < threshold := by
        rw [← hrest _ (List.mem_of_getElem? hportion)]
        simp
      have hindex : (i + 1 + 1) * threshold - 1 = first.length + ((i + 1) * threshold - 1) := by
        have hle : 1 ≤ (i + 1) * threshold := Nat.mul_pos (Nat.succ_pos i) hpos
        rw [Nat.add_one_mul, hfirst]
        omega
      rw [hindex, List.getElem?_append_right (Nat.le_add_right _ _), Nat.add_sub_cancel_left]
      exact ih hrest hportion

/-- What has been handed off where each event found the worker at rest. -/
structure Exact (threshold : Nat) (session : Session β) : Prop where
  handOffs : session.handOffs.length = session.collected.length / threshold
  pending : session.flusher.pending.count = session.collected.length % threshold
  /-- A batch carries the offset of the last event that made it full. -/
  offset : ∀ i, i < session.collected.length / threshold → ∃ batch event,
    session.handOffs[i]? = some (.sent, batch) ∧
      session.collected[(i + 1) * threshold - 1]? = some event ∧ batch.last.offset = event.offset

variable {done : List (List FinishedEvent)} {flight? : Option (List FinishedEvent)}
  {waiting : List FinishedEvent}

theorem Filled.handOffs_le (h : session.Filled threshold) (hthreshold : 0 < threshold)
    (haccount : Account session done flight? waiting) :
    session.handOffs.length ≤ session.collected.length / threshold := by
  have hcounts := List.card_nsmul_le_sum (session.handOffs.map fun handOff ↦ handOff.2.count)
    threshold (List.forall_mem_map.mpr h.full)
  rw [List.length_map, Nat.nsmul_eq_mul] at hcounts
  refine (Nat.le_div_iff_mul_le hthreshold).mpr ?_
  rw [haccount.length_collected]
  exact Nat.le_add_right_of_le hcounts

theorem Account.portions (h : Account session done flight? waiting) :
    session.collected = (done ++ flight?.toList).flatten ++ waiting ∧
      session.handOffs =
        (done ++ flight?.toList).map (fun portion ↦ (.sent, .ofEvents portion)) := by
  refine ⟨?_, h.handOffs⟩
  rw [h.collected]
  cases flight? <;> simp

theorem Prompt.exact (h : session.Prompt threshold)
    (haccount : Account session done flight? waiting) (hfree : session.lock = .free) :
    session.Exact threshold := by
  obtain ⟨hcollected, hhandOffs⟩ := haccount.portions
  have hcounts := List.sum_eq_card_nsmul (session.handOffs.map fun handOff ↦ handOff.2.count)
    threshold (List.forall_mem_map.mpr h.full)
  have hlength := haccount.length_collected
  rw [hcounts, List.length_map, Nat.nsmul_eq_mul] at hlength
  have hpending := h.free hfree
  have hthreshold : 0 < threshold := Nat.zero_lt_of_lt hpending
  have hdiv : session.collected.length / threshold = session.handOffs.length := by
    rw [hlength, Nat.mul_comm, Nat.mul_add_div hthreshold, Nat.div_eq_of_lt hpending, Nat.add_zero]
  refine ⟨hdiv.symm, ?_, fun i hi ↦ ?_⟩
  · rw [hlength, Nat.mul_comm, Nat.mul_add_mod, Nat.mod_eq_of_lt hpending]
  · have hportions : ∀ portion ∈ done ++ flight?.toList, portion.length = threshold := by
      intro portion hportion
      rw [← Batch.count_ofEvents]
      refine h.full (.sent, .ofEvents portion) ?_
      rw [hhandOffs]
      exact List.mem_map_of_mem hportion
    rw [hdiv, hhandOffs, List.length_map] at hi
    generalize done ++ flight?.toList = portions at hcollected hhandOffs hportions hi
    have hportion := List.getElem?_eq_getElem hi
    obtain ⟨front, event, hlast⟩ : ∃ front event, portions[i] = front ++ [event] := by
      rcases List.eq_nil_or_concat' portions[i] with hnil | hlast
      · have hfull := hportions _ (List.getElem_mem hi)
        rw [hnil, List.length_nil] at hfull
        omega
      · exact hlast
    rw [hlast] at hportion
    refine ⟨.ofEvents (front ++ [event]), event, ?_, ?_, ?_⟩
    · rw [hhandOffs, List.getElem?_map, hportion]
      rfl
    · rw [hcollected]
      exact getElem?_flatten_last hportions waiting hportion
    · rw [Batch.ofEvents_append_singleton]
      rfl

section

variable [Backend β] {config : Config} {partition : PartitionId} {actions : List (Action β)}

/-- How few batches are handed off, and how few writes are made, where nobody flushes. -/
structure Amortized (threshold : Nat) (session : Session β)
    (attempts : List (Batch × Except StorageError Unit)) : Prop where
  /-- Each batch handed off has merged events of its own, enough to be full. -/
  portions : ∃ (portions : List (List FinishedEvent)) (waiting : List FinishedEvent),
    session.collected = portions.flatten ++ waiting ∧
      session.handOffs = portions.map (fun portion ↦ (.sent, .ofEvents portion)) ∧
      session.flusher.pending = .ofEvents waiting ∧
      ∀ portion ∈ portions, threshold ≤ portion.length
  handOffs_le : session.handOffs.length ≤ session.collected.length / threshold
  landed : session.landed = (attempts.filter (·.2.isOk)).map Prod.fst
  /-- A write either lands its batch or fails. -/
  writes : attempts.length = session.landed.length + (attempts.filter (!·.2.isOk)).length
  silent : session.collected.length < threshold → attempts = []

/-- No flush is in flight when an event is merged. -/
def CollectsAtRest (config : Config) (partition : PartitionId) :
    Session β → List (Action β) → Prop
  | _, [] => True
  | session, action :: actions =>
    (∀ event, action = .collect event → session.lock = .free → session.flusher.active = false) ∧
      CollectsAtRest config partition (session.act config partition action) actions

instance decidableCollectsAtRest (config : Config) (partition : PartitionId) :
    (session : Session β) → (actions : List (Action β)) →
      Decidable (CollectsAtRest config partition session actions)
  | _, [] => isTrue trivial
  | session, action :: actions =>
    have : Decidable (∀ event, action = .collect event → session.lock = .free →
        session.flusher.active = false) :=
      match action with
      | .collect event =>
        decidable_of_iff (session.lock = .free → session.flusher.active = false)
          ⟨fun hrest _ _ ↦ hrest, fun hrest ↦ hrest event rfl⟩
      | .look | .handOff | .flush | .advance _ | .work | .wait _ | .exchange _ => isTrue nofun
    have := decidableCollectsAtRest config partition (session.act config partition action) actions
    inferInstanceAs (Decidable (_ ∧ _))

theorem calls_act (hcalls : session.calls = []) (hother : action ≠ .flush) :
    (session.act config partition action).calls = [] := by
  cases action with
  | flush => exact absurd rfl hother
  | collect event =>
    unfold act collect
    dsimp only
    split <;> exact hcalls
  | look =>
    unfold act look
    dsimp only
    split
    · split_ifs <;> exact hcalls
    · exact hcalls
  | handOff =>
    unfold act handOff
    dsimp only
    split
    · split <;> simp [setPhase, hcalls]
    · exact hcalls
  | advance number =>
    unfold act advance
    rw [hcalls]
    exact hcalls
  | work =>
    unfold act work
    dsimp only
    split <;> exact hcalls
  | wait | exchange => exact hcalls

theorem Filled.run (h : session.Filled config.flushThreshold.toNat)
    (hunflushed : .flush ∉ actions) :
    (session.run config partition actions).Filled config.flushThreshold.toNat := by
  induction actions generalizing session with
  | nil => exact h
  | cons action actions ih =>
    rw [List.mem_cons, not_or] at hunflushed
    obtain ⟨hother, hrest⟩ := hunflushed
    exact ih (h.turn (turn_of_act config partition session action)
      (calls_act h.calls (Ne.symm hother))) hrest

theorem Prompt.run (h : session.Prompt config.flushThreshold.toNat)
    (hthreshold : 0 < config.flushThreshold.toNat) (hsteady : Steady session done flight? waiting)
    (hcalls : session.calls = []) (hunflushed : .flush ∉ actions)
    (hrest : CollectsAtRest config partition session actions) :
    (session.run config partition actions).Prompt config.flushThreshold.toNat := by
  induction actions generalizing session done flight? waiting with
  | nil => exact h
  | cons action actions ih =>
    rw [List.mem_cons, not_or] at hunflushed
    obtain ⟨hother, hunflushed⟩ := hunflushed
    obtain ⟨done', flight?', waiting', hact⟩ := hsteady.act config partition action
    exact ih (h.turn hsteady hthreshold hcalls (turn_of_act config partition session action)
      hrest.1) hact (calls_act hcalls (Ne.symm hother)) hunflushed hrest.2

/-- **Write amplification is bounded.** As long as nobody flushes, each batch handed off has merged
at least as many events as the threshold tells, and a batch is written once and once more for each
failure. If moreover each event finds no flush in flight, every batch is as small as that. -/
theorem run_amortized (partition : PartitionId) (store : β) (hthreshold : config.flushThreshold ≠ 0)
    (hunflushed : .flush ∉ actions) :
    let session := (start store).run config partition actions
    session.Amortized config.flushThreshold.toNat
        ((start store).runWrites config partition actions) ∧
      (CollectsAtRest config partition (start store) actions → session.lock = .free →
        session.Exact config.flushThreshold.toNat) := by
  intro session
  have hpos : 0 < config.flushThreshold.toNat :=
    Nat.pos_of_ne_zero fun hzero ↦ hthreshold (UInt64.toNat_inj.mp hzero)
  obtain ⟨done, flight?, waiting, haccount⟩ := run_account config partition store actions
  have hfilled : session.Filled config.flushThreshold.toNat := (filled_start _ store).run hunflushed
  have hhandOffs := hfilled.handOffs_le hpos haccount
  have hlanded : session.landed =
      (((start store).runWrites config partition actions).filter (·.2.isOk)).map Prod.fst :=
    landed_run config partition (start store) actions
  obtain ⟨hcollected, hportions⟩ := haccount.portions
  refine ⟨⟨⟨_, waiting, hcollected, hportions, haccount.pending, fun portion hportion ↦ ?_⟩,
    hhandOffs, hlanded, ?_, fun hfew ↦ ?_⟩, fun hrest hfree ↦ ?_⟩
  · rw [← Batch.count_ofEvents]
    refine hfilled.full (.sent, .ofEvents portion) ?_
    rw [hportions]
    exact List.mem_map_of_mem hportion
  · rw [hlanded, List.length_map]
    exact List.length_eq_length_filter_add _
  · refine (steady_start store).runWrites_eq_nil (List.eq_nil_of_length_eq_zero ?_)
    rw [Nat.div_eq_of_lt hfew] at hhandOffs
    exact Nat.le_zero.mp hhandOffs
  · exact ((prompt_start hpos store).run hpos (steady_start store) rfl hunflushed hrest).exact
      haccount hfree

/-- The events with the numbers up to `count`, each with time for its batch to be written again. -/
def paced (count : Nat) : List (Action (Faulty Rows)) :=
  (List.range' 1 count).flatMap fun number ↦
    [.collect ⟨⟨.ofNat number⟩, ⟨7⟩, ⟨.ofNat number⟩, ⟨.ofNat number⟩, ⟨0⟩⟩, .look, .handOff,
      .work, .work, .wait 5, .work, .work, .work]

/-- Five events make two batches of two, written three times because the first write fails. -/
theorem paced_amortized :
    let config := { Config.default with flushThreshold := 2 }
    let store := (Faulty.ofBackend (∅ : Rows)).failWrites 1
    let session := (start store).run config ⟨1⟩ (paced 5)
    let attempts := (start store).runWrites config ⟨1⟩ (paced 5)
    config.flushThreshold ≠ 0 ∧ .flush ∉ paced 5 ∧
      session.Amortized config.flushThreshold.toNat attempts ∧
      session.Exact config.flushThreshold.toNat ∧
      session.handOffs.length = 2 ∧ attempts.length = 3 ∧ session.flusher.pending.count = 1 := by
  intro config store session attempts
  have hthreshold : config.flushThreshold ≠ 0 := by decide
  have hunflushed : .flush ∉ paced 5 := by simp [paced]
  have hrest : CollectsAtRest config ⟨1⟩ (start store) (paced 5) := by decide +kernel
  have hfree : session.lock = .free := by decide +kernel
  obtain ⟨hamortized, hexact⟩ := run_amortized ⟨1⟩ store hthreshold hunflushed
  exact ⟨hthreshold, hunflushed, hamortized, hexact hrest hfree, by decide +kernel,
    by decide +kernel, by decide +kernel⟩

/-! ### A full batch left behind -/

variable {store : β}

theorem run_concat (config : Config) (partition : PartitionId) (session : Session β)
    (actions : List (Action β)) (action : Action β) :
    session.run config partition (actions ++ [action]) =
      (session.run config partition actions).act config partition action := by
  rw [run, List.foldl_append]
  rfl

/-- The batch was full when the worker lowered the flag, and since then nobody has collected, so
that nobody has looked at the threshold, and nobody has handed off. -/
def LeftFull (config : Config) (partition : PartitionId) (session : Session β)
    (actions : List (Action β)) : Prop :=
  ∃ first later, actions = first ++ .work :: later ∧
    let before := session.run config partition first
    let after := session.run config partition actions
    before.flusher.worker = .clearing ∧ config.flushThreshold.toNat ≤ before.flusher.pending.count ∧
      after.collected = before.collected ∧ after.handOffs = before.handOffs

theorem LeftFull.concat (h : LeftFull config partition session actions)
    (hcollected : (session.run config partition (actions ++ [action])).collected =
      (session.run config partition actions).collected)
    (hhandOffs : (session.run config partition (actions ++ [action])).handOffs =
      (session.run config partition actions).handOffs) :
    LeftFull config partition session (actions ++ [action]) := by
  obtain ⟨first, later, rfl, hworker, hfull, hcollected', hhandOffs'⟩ := h
  refine ⟨first, later ++ [action], ?_, hworker, hfull, hcollected.trans hcollected',
    hhandOffs.trans hhandOffs'⟩
  rw [List.append_assoc, List.cons_append]

theorem leftFull_of_full (hthreshold : 0 < config.flushThreshold.toNat)
    (hfree : ((start store).run config partition actions).lock = .free)
    (hdown : ((start store).run config partition actions).flusher.active = false)
    (hfull : config.flushThreshold.toNat ≤
      ((start store).run config partition actions).flusher.pending.count) :
    LeftFull config partition (start store) actions := by
  induction actions using List.reverseRecOn with
  | nil => exact absurd hfull (Nat.not_le_of_lt hthreshold)
  | append_singleton actions action ih =>
    obtain ⟨done, flight?, waiting, hsteady⟩ := (steady_start store).run config partition actions
    have hturn := turn_of_act config partition ((start store).run config partition actions) action
    rw [← run_concat] at hturn
    generalize hafter : (start store).run config partition (actions ++ [action]) = after
      at hturn hfree hdown hfull
    cases hturn with
    | merge => nomatch hfree
    | resolve => nomatch hfree
    | claim => nomatch hfree
    | release hmerged hbusy =>
      -- the caller that released the lock has seen the flag up
      exact absurd hdown (by simp [hbusy hfull])
    | send call? calls hlock =>
      have hsent := hsteady.sound.handOff_eq hsteady.isOpen (hsteady.down call? hlock)
      simp only [hsent] at hdown
      exact nomatch hdown
    | work flusher store' landed haction hpending hactive =>
      rcases hactive with hsame | ⟨hworker, -⟩
      · refine (ih hfree (hsame ▸ hdown) (hpending ▸ hfull)).concat ?_ ?_ <;> rw [hafter]
      · subst haction
        refine ⟨actions, [], rfl, hworker, hpending ▸ hfull, ?_, ?_⟩ <;> rw [hafter]
    | pass => refine (ih hfree hdown hfull).concat ?_ ?_ <;> rw [hafter]

theorem LeftFull.full (h : LeftFull config partition (start store) actions) :
    config.flushThreshold.toNat ≤
      ((start store).run config partition actions).flusher.pending.count := by
  obtain ⟨first, later, -, -, hfull, hcollected, hhandOffs⟩ := h
  obtain ⟨_, _, _, hbefore⟩ := run_account config partition store first
  obtain ⟨_, _, _, hafter⟩ := run_account config partition store actions
  have hlength := hafter.length_collected
  rw [hcollected, hhandOffs, hbefore.length_collected, Nat.add_left_cancel_iff] at hlength
  exact hlength ▸ hfull

/-- When no flush is in flight, what is pending is what is left to replay. It comes to a full batch
only if it did when the worker lowered the flag. -/
theorem run_full_iff (hthreshold : config.flushThreshold ≠ 0)
    (hfree : ((start store).run config partition actions).lock = .free)
    (hdown : ((start store).run config partition actions).flusher.active = false) :
    let session := (start store).run config partition actions
    (∃ (done : List (List FinishedEvent)) (waiting : List FinishedEvent),
      session.landed = done.map .ofEvents ∧ session.collected = done.flatten ++ waiting ∧
        waiting.length = session.flusher.pending.count) ∧
    (config.flushThreshold.toNat ≤ session.flusher.pending.count ↔
      LeftFull config partition (start store) actions) := by
  intro session
  have hpos : 0 < config.flushThreshold.toNat :=
    Nat.pos_of_ne_zero fun hzero ↦ hthreshold (UInt64.toNat_inj.mp hzero)
  obtain ⟨done, flight?, waiting, haccount⟩ := run_account config partition store actions
  refine ⟨⟨done, waiting, haccount.landed, ?_, ?_⟩, leftFull_of_full hpos hfree hdown,
    LeftFull.full⟩
  · have hcollected := haccount.collected
    rw [haccount.flight?_eq_none hdown, Option.getD_none, List.append_nil] at hcollected
    exact hcollected
  · rw [haccount.pending, Batch.count_ofEvents]

/-- The second of two events is collected while the batch of the first is in flight. -/
def leaving : List (Action Rows) :=
  [.collect ⟨⟨1⟩, ⟨7⟩, ⟨1⟩, ⟨1⟩, ⟨0⟩⟩, .look, .handOff, .work,
    .collect ⟨⟨2⟩, ⟨7⟩, ⟨2⟩, ⟨2⟩, ⟨0⟩⟩, .look, .work, .work]

/-- A threshold of one does not see to it that an event is handed off. -/
theorem leaving_full :
    let config := { Config.default with flushThreshold := 1 }
    let session := (start (∅ : Rows)).run config ⟨1⟩ leaving
    config.flushThreshold ≠ 0 ∧ session.lock = .free ∧ session.flusher.active = false ∧
      LeftFull config ⟨1⟩ (start ∅) leaving ∧
      (∃ (done : List (List FinishedEvent)) (waiting : List FinishedEvent),
        session.collected = done.flatten ++ waiting ∧ waiting.length = 1) := by
  intro config session
  have hthreshold : config.flushThreshold ≠ 0 := by decide
  have hfree : session.lock = .free := by decide +kernel
  have hdown : session.flusher.active = false := by decide +kernel
  have hpending : session.flusher.pending.count = 1 := by decide +kernel
  obtain ⟨⟨done, waiting, -, hcollected, hwaiting⟩, hfull⟩ :=
    run_full_iff hthreshold hfree hdown
  exact ⟨hthreshold, hfree, hdown, hfull.mp hpending.ge, done, waiting, hcollected,
    hwaiting.trans hpending⟩

end

end Session

end Flusher

end LogSequencing
