import LogSequencing.Proofs.Flusher

/-!
# A flusher in use

Any number of callers collect finished events and flush, while the worker writes batches to a store
that may fail whenever it likes. The pending batch is guarded by a lock, but the worker lowers the
flag without it. A caller therefore looks at the flag in one step and hands off in a later one, with
any steps of the others between them; without interruption these steps come to `Flusher.collect`
(`Session.run_collect`) and `Flusher.tryHandOff` (`Session.run_tryHandOff`).

In every order of steps each event collected is in exactly one place, in the order of collection.
-/

set_option autoImplicit false
set_option relaxedAutoImplicit false

namespace LogSequencing

namespace Flusher

/-- Who holds the lock on the pending batch. -/
inductive Lock where
  | free
  /-- A collecting call that has merged its event and is about to look at the flag. -/
  | merged
  /-- A call that has found the flag down and is about to hand off. A flush call has a number. -/
  | handingOff (call? : Option Nat)
deriving DecidableEq, Repr

/-- How far a call has come that flushes and then waits until no flush is in flight. -/
inductive FlushPhase where
  /-- Waits until no flush is in flight, to hand off what is pending. -/
  | awaiting
  /-- Is about to take the lock. -/
  | trying
  | handingOff
  /-- Waits until no flush is in flight, to return. -/
  | draining
  | returned
deriving DecidableEq, Repr

structure FlushCall where
  phase : FlushPhase
  /-- The number of events that had been collected before the call. -/
  before : Nat
deriving DecidableEq, Repr

structure Session (β : Type) where
  flusher : Flusher
  store : β
  clock : Nat
  lock : Lock
  calls : List FlushCall
  /-- All events collected, in the order in which they were merged. -/
  collected : List FinishedEvent
  /-- All batches handed off, and how each hand-off ended. -/
  handOffs : List (HandOff × Batch)
  /-- The batches that the store has taken. -/
  landed : List Batch

namespace Session

inductive Action (β : Type) where
  | collect (event : FinishedEvent)
  /-- A collecting call looks at the flag. -/
  | look
  /-- Whoever has found the flag down hands off. -/
  | handOff
  /-- A flush call begins. -/
  | flush
  /-- A flush call goes on. -/
  | advance (call : Nat)
  | work
  | wait (milliseconds : Nat)
  /-- The store is exchanged for any other, so that any write may fail and any may succeed. -/
  | exchange (store : β)

variable {β : Type}

def start (store : β) : Session β := ⟨.start, store, 0, .free, [], [], [], []⟩

def setPhase (session : Session β) (call : Nat) (phase : FlushPhase) : Session β :=
  { session with calls := session.calls.modify call ({ · with phase }) }

def collect (session : Session β) (event : FinishedEvent) : Session β :=
  match session.lock with
  | .free => { session with
      flusher := { session.flusher with pending := session.flusher.pending.merge event }
      lock := .merged
      collected := session.collected ++ [event] }
  | _ => session

def look (threshold : Nat) (session : Session β) : Session β :=
  match session.lock with
  | .merged =>
    if threshold ≤ session.flusher.pending.count ∧ ¬ session.flusher.active then
      { session with lock := .handingOff none }
    else
      { session with lock := .free }
  | _ => session

def handOff (session : Session β) : Session β :=
  match session.lock with
  | .handingOff call? =>
    let (result, flusher) := session.flusher.handOff
    let session := { session with
      flusher
      lock := .free
      handOffs := session.handOffs ++ [(result, session.flusher.pending)] }
    match call? with
    | some call => session.setPhase call .draining
    | none => session
  | _ => session

/-- A flush call takes the lock and looks whether there is anything to hand off. -/
def tryHandOff (session : Session β) (call : Nat) : Session β :=
  match session.lock with
  | .free =>
    if session.flusher.pending.count = 0 then session.setPhase call .draining
    else if session.flusher.active then session.setPhase call .awaiting
    else { session.setPhase call .handingOff with lock := .handingOff (some call) }
  | _ => session

def advance (session : Session β) (call : Nat) : Session β :=
  match (session.calls[call]?).map FlushCall.phase with
  | some .awaiting =>
    if session.flusher.active then session else session.setPhase call .trying
  | some .trying => session.tryHandOff call
  | some .draining =>
    if session.flusher.active then session else session.setPhase call .returned
  | _ => session

section

variable [Backend β]

/-- The batch that the next step of the worker puts into the store, if the write succeeds. -/
def landing (partition : PartitionId) (session : Session β) : List Batch :=
  match session.flusher.worker with
  | .writing batch _ =>
    match (Checkpoint.putBatch session.store partition batch.rows).1 with
    | .ok () => [batch]
    | .error _ => []
  | _ => []

/-- The worker takes a step; no shutdown has been requested. -/
def work (config : Config) (partition : PartitionId) (session : Session β) : Session β :=
  match session.flusher.workerStep? config partition ⟨session.clock, false, false⟩
      session.store with
  | none => session
  | some (flusher, store) =>
    { session with flusher, store, landed := session.landed ++ session.landing partition }

def act (config : Config) (partition : PartitionId) (session : Session β) :
    Action β → Session β
  | .collect event => session.collect event
  | .look => session.look config.flushThreshold.toNat
  | .handOff => session.handOff
  | .flush =>
    { session with calls := session.calls ++ [⟨.awaiting, session.collected.length⟩] }
  | .advance call => session.advance call
  | .work => session.work config partition
  | .wait milliseconds => { session with clock := session.clock + milliseconds }
  | .exchange store => { session with store }

def run (config : Config) (partition : PartitionId) (session : Session β)
    (actions : List (Action β)) : Session β :=
  actions.foldl (act config partition) session

/-! ### Uninterrupted calls -/

/-- A collecting call that nobody interrupts. -/
theorem run_collect (config : Config) (partition : PartitionId) {session : Session β}
    (hfree : session.lock = .free) (event : FinishedEvent) :
    (session.run config partition [.collect event, .look, .handOff]).flusher =
      session.flusher.collect config.flushThreshold.toNat event := by
  simp only [run, act, List.foldl_cons, List.foldl_nil, collect, hfree, look, Flusher.collect]
  split_ifs <;> simp only [handOff]

/-- A flush call that nobody interrupts once it takes the lock. -/
theorem run_tryHandOff (config : Config) (partition : PartitionId) {session : Session β}
    (hfree : session.lock = .free) {call : Nat} {before : Nat}
    (hcall : session.calls[call]? = some ⟨.trying, before⟩) :
    (session.run config partition [.advance call, .handOff]).flusher =
      session.flusher.tryHandOff.2 := by
  simp only [run, act, List.foldl_cons, List.foldl_nil, advance, hcall, Option.map_some,
    tryHandOff, hfree, Flusher.tryHandOff]
  split_ifs <;> simp only [handOff, setPhase, hfree]

end

/-! ### Where events are -/

/-- The events collected are those of the batches landed (`done`), then those of the batch handed off
and not landed (`flight?`), then those pending (`waiting`). The count in a batch tells how many
events it merged, so there is no other way to divide them. -/
structure Account (session : Session β) (done : List (List FinishedEvent))
    (flight? : Option (List FinishedEvent)) (waiting : List FinishedEvent) : Prop where
  collected : session.collected = done.flatten ++ flight?.getD [] ++ waiting
  landed : session.landed = done.map .ofEvents
  /-- The batch handed off is either in the channel or in the worker's hands. -/
  carried : session.flusher.carried = (flight?.map .ofEvents).toList
  pending : session.flusher.pending = .ofEvents waiting
  /-- Each hand-off sent its batch, which then landed once or is still carried. -/
  handOffs : session.handOffs =
    (done ++ flight?.toList).map fun events ↦ (.sent, .ofEvents events)
  resting : session.flusher.active = false →
    session.flusher.handedOff? = none ∧ session.flusher.worker.inHand = []
  /-- When a flush has returned, all that was collected before it has landed. -/
  returned : ∀ call ∈ session.calls, call.phase = .returned → call.before ≤ done.flatten.length

/-- What keeps the accounts in order. -/
structure Steady (session : Session β) (done : List (List FinishedEvent))
    (flight? : Option (List FinishedEvent)) (waiting : List FinishedEvent) : Prop
    extends Account session done flight? waiting where
  sound : session.flusher.Sound
  isOpen : session.flusher.isOpen = true
  /-- Only the holder of the lock can raise the flag, so it stays down until the hand-off. -/
  down : ∀ call?, session.lock = .handingOff call? → session.flusher.active = false
  begun : ∀ call ∈ session.calls, call.before ≤ session.collected.length
  draining : ∀ call ∈ session.calls, call.phase = .draining →
    call.before ≤ done.flatten.length + (flight?.getD []).length

theorem steady_start (store : β) : Steady (start store) [] none [] where
  collected := rfl
  landed := rfl
  carried := rfl
  pending := rfl
  handOffs := rfl
  resting _ := ⟨rfl, rfl⟩
  returned _ hcall := nomatch hcall
  sound := sound_start
  isOpen := rfl
  down _ hlock := nomatch hlock
  begun _ hcall := nomatch hcall
  draining _ hcall := nomatch hcall

variable {session : Session β} {done : List (List FinishedEvent)}
  {flight? : Option (List FinishedEvent)} {waiting : List FinishedEvent}

theorem mem_setPhase {number : Nat} {phase : FlushPhase} {call : FlushCall}
    (h : call ∈ (session.setPhase number phase).calls) :
    call ∈ session.calls ∨
      ∃ old ∈ session.calls, session.calls[number]? = some old ∧ call = { old with phase } := by
  obtain ⟨index, hindex⟩ := List.mem_iff_getElem?.mp h
  rw [setPhase, List.getElem?_modify] at hindex
  obtain ⟨old, hold, rfl⟩ := Option.map_eq_some_iff.mp hindex
  have hmem : old ∈ session.calls := List.mem_iff_getElem?.mpr ⟨index, hold⟩
  split_ifs with hnumber
  · exact Or.inr ⟨old, hmem, hnumber ▸ hold, rfl⟩
  · exact Or.inl hmem

/-- A call may enter a phase that promises nothing, or nothing that does not hold. -/
theorem Steady.setPhase (h : Steady session done flight? waiting) (number : Nat)
    {phase : FlushPhase}
    (hdraining : phase = .draining → ∀ call, session.calls[number]? = some call →
      call.before ≤ done.flatten.length + (flight?.getD []).length)
    (hreturned : phase = .returned → ∀ call, session.calls[number]? = some call →
      call.before ≤ done.flatten.length) :
    Steady (session.setPhase number phase) done flight? waiting := by
  refine { h with returned := ?_, begun := ?_, draining := ?_ } <;> intro call hcall <;>
    rcases mem_setPhase hcall with hcall | ⟨old, hold, hnumber, rfl⟩
  · exact h.returned call hcall
  · exact fun hphase ↦ hreturned hphase old hnumber
  · exact h.begun call hcall
  · exact h.begun old hold
  · exact h.draining call hcall
  · exact fun hphase ↦ hdraining hphase old hnumber

/-! ### Steps of the callers -/

theorem Steady.collect (h : Steady session done flight? waiting) (event : FinishedEvent) :
    ∃ waiting, Steady (session.collect event) done flight? waiting := by
  unfold Session.collect
  split
  · refine ⟨waiting ++ [event], { h with
      collected := ?_
      pending := ?_
      sound := ⟨h.sound.1, h.sound.2, h.sound.3, h.sound.4⟩
      down := nofun
      begun := fun call hcall ↦ ?_ }⟩
    · rw [h.collected, List.append_assoc _ waiting]
    · rw [h.pending, Batch.ofEvents_append_singleton]
    · rw [List.length_append]
      exact Nat.le_add_right_of_le (h.begun call hcall)
  · exact ⟨waiting, h⟩

theorem Steady.look (h : Steady session done flight? waiting) (threshold : Nat) :
    Steady (session.look threshold) done flight? waiting := by
  unfold Session.look
  split
  · split_ifs with hdue
    · exact { h with down := fun _ _ ↦ Bool.eq_false_iff.mpr hdue.2 }
    · exact { h with down := nofun }
  · exact h

/-- While the flag is down all that was handed off has landed. -/
theorem Account.flight?_eq_none (h : Account session done flight? waiting)
    (hactive : session.flusher.active = false) : flight? = none := by
  obtain ⟨hplace, hhand⟩ := h.resting hactive
  have hcarried := h.carried
  rw [Flusher.carried, hplace, hhand] at hcarried
  cases flight? with
  | none => rfl
  | some events => exact absurd hcarried.symm (List.cons_ne_nil _ _)

theorem Steady.send (h : Steady session done flight? waiting)
    (hactive : session.flusher.active = false) :
    Steady { session with
      flusher := session.flusher.handOff.2
      lock := .free
      handOffs := session.handOffs ++ [(session.flusher.handOff.1, session.flusher.pending)] }
      done (some waiting) [] := by
  obtain rfl := h.flight?_eq_none hactive
  have hcollected : session.collected = done.flatten ++ waiting := by
    rw [h.collected, Option.getD_none, List.append_nil]
  rw [h.sound.handOff_eq h.isOpen hactive]
  refine { h with
    collected := ?_
    carried := ?_
    pending := rfl
    handOffs := ?_
    resting := nofun
    sound := h.sound.send h.isOpen hactive
    down := nofun
    draining := fun call hcall _ ↦ ?_ }
  · rw [hcollected, Option.getD_some, List.append_nil]
  · rw [h.sound.carried_send hactive, h.pending]
    rfl
  · rw [h.handOffs, h.pending]
    simp
  · have hbegun := h.begun call hcall
    rwa [hcollected, List.length_append] at hbegun

theorem Steady.handOff (h : Steady session done flight? waiting) :
    ∃ flight? waiting, Steady session.handOff done flight? waiting := by
  unfold Session.handOff
  split
  case h_1 call? hlock =>
    have hsend := h.send (h.down call? hlock)
    refine ⟨some waiting, [], ?_⟩
    cases call? with
    | none => exact hsend
    | some number =>
      refine hsend.setPhase number (fun _ call hcall ↦ ?_) nofun
      have hbegun := hsend.begun call (List.mem_iff_getElem?.mpr ⟨number, hcall⟩)
      rwa [hsend.collected, List.append_nil, List.length_append] at hbegun
  case h_2 => exact ⟨flight?, waiting, h⟩

theorem Steady.tryHandOff (h : Steady session done flight? waiting) (number : Nat) :
    Steady (session.tryHandOff number) done flight? waiting := by
  unfold Session.tryHandOff
  split
  · split_ifs with hcount hactive
    · refine h.setPhase number (fun _ call hcall ↦ ?_) nofun
      have hnil : waiting = [] := by
        rw [h.pending, Batch.count_ofEvents] at hcount
        exact List.length_eq_zero_iff.mp hcount
      have hbegun := h.begun call (List.mem_iff_getElem?.mpr ⟨number, hcall⟩)
      rwa [h.collected, hnil, List.append_nil, List.length_append] at hbegun
    · exact h.setPhase number nofun nofun
    · have hphase : Steady (session.setPhase number .handingOff) done flight? waiting :=
        h.setPhase number nofun nofun
      exact { hphase with
        down := fun _ _ ↦ Bool.eq_false_iff.mpr hactive }
  · exact h

theorem Steady.advance (h : Steady session done flight? waiting) (number : Nat) :
    Steady (session.advance number) done flight? waiting := by
  unfold Session.advance
  split
  · split_ifs
    · exact h
    · exact h.setPhase number nofun nofun
  · exact h.tryHandOff number
  case h_3 hphase =>
    split_ifs with hactive
    · exact h
    · refine h.setPhase number nofun fun _ call hcall ↦ ?_
      rw [hcall] at hphase
      have hbefore := h.draining call (List.mem_iff_getElem?.mpr ⟨number, hcall⟩)
        (Option.some.inj hphase)
      rwa [h.flight?_eq_none (Bool.eq_false_iff.mpr hactive)] at hbefore
  · exact h

/-! ### Steps of the worker -/

section

variable [Backend β]

theorem landing_of_landing {batch : Batch} {failures : Nat} {left : β} {partition : PartitionId}
    (hworker : session.flusher.worker = .writing batch failures)
    (hwrite : Checkpoint.putBatch session.store partition batch.rows = (.ok (), left)) :
    session.landing partition = [batch] := by
  simp only [landing, hworker, hwrite]

theorem landing_of_retaining {left : β} {partition : PartitionId}
    (hwriting : ∀ batch failures, session.flusher.worker = .writing batch failures →
      ∃ error, Checkpoint.putBatch session.store partition batch.rows = (.error error, left)) :
    session.landing partition = [] := by
  unfold landing
  cases hworker : session.flusher.worker with
  | writing batch failures =>
    obtain ⟨error, hwrite⟩ := hwriting batch failures hworker
    simp only [hwrite]
  | _ => rfl

omit [Backend β] in
/-- The batch in flight is among those done once it has landed. -/
theorem Steady.land {events : List FinishedEvent} (h : Steady session done (some events) waiting)
    {after : Flusher} (left : β) (hsound : after.Sound)
    (hpending : after.pending = session.flusher.pending)
    (hopen : after.isOpen = session.flusher.isOpen)
    (hactive : after.active = session.flusher.active) (hcarried : after.carried = []) :
    Steady { session with
      flusher := after, store := left, landed := session.landed ++ [.ofEvents events] }
      (done ++ [events]) none waiting := by
  refine { h with
    collected := ?_
    landed := ?_
    carried := hcarried
    pending := hpending.trans h.pending
    handOffs := ?_
    resting := hsound.resting
    returned := fun call hcall hphase ↦ ?_
    sound := hsound
    isOpen := hopen.trans h.isOpen
    down := fun call? hlock ↦ hactive.trans (h.down call? hlock)
    draining := fun call hcall hphase ↦ ?_ }
  · rw [h.collected]
    simp
  · rw [h.landed, List.map_append]
    rfl
  · rw [h.handOffs]
    simp
  · refine (h.returned call hcall hphase).trans ?_
    simp
  · simpa using h.draining call hcall hphase

theorem Steady.deliver (h : Steady session done flight? waiting) {partition : PartitionId}
    {after : Flusher} {left : β} (hsound : after.Sound)
    (hpending : after.pending = session.flusher.pending)
    (hopen : after.isOpen = session.flusher.isOpen)
    (hdelivery : session.flusher.Delivery partition false session.store after left) :
    ∃ done flight?, Steady { session with
      flusher := after, store := left, landed := session.landed ++ session.landing partition }
      done flight? waiting := by
  cases hdelivery with
  | land batch failures hworker hwrite hbefore hafter hactive =>
    obtain ⟨events, rfl, rfl⟩ : ∃ events, flight? = some events ∧ batch = .ofEvents events := by
      have hflight := hbefore.symm.trans h.carried
      cases flight? with
      | none => exact absurd hflight (List.cons_ne_nil _ _)
      | some events => exact ⟨events, rfl, List.head_eq_of_cons_eq hflight⟩
    rw [landing_of_landing hworker hwrite]
    exact ⟨done ++ [events], none, h.land left hsound hpending hopen hactive hafter⟩
  | abandon _ _ _ hstopping => exact absurd hstopping Bool.false_ne_true
  | retain hwriting _ hcarried hactive =>
    have hlanding : session.landing partition = [] :=
      landing_of_retaining fun batch failures hworker ↦ (hwriting batch failures hworker).2
    rw [hlanding, List.append_nil]
    refine ⟨done, flight?, { h with
      carried := hcarried.trans h.carried
      pending := hpending.trans h.pending
      resting := hsound.resting
      sound := hsound
      isOpen := hopen.trans h.isOpen
      down := fun call? hlock ↦ ?_ }⟩
    rcases hactive with hactive | ⟨hactive, -⟩
    · exact hactive.trans (h.down call? hlock)
    · exact hactive

theorem Steady.work (h : Steady session done flight? waiting) (config : Config)
    (partition : PartitionId) :
    ∃ done flight?, Steady (session.work config partition) done flight? waiting := by
  unfold Session.work
  cases hstep : session.flusher.workerStep? config partition ⟨session.clock, false, false⟩
    session.store with
  | none => exact ⟨done, flight?, h⟩
  | some result =>
    have hmove := workerMove_of_step hstep rfl
    obtain ⟨hpending, hopen⟩ := hmove.keeps
    exact h.deliver (hmove.sound h.sound) hpending hopen (hmove.delivery h.sound)

theorem Steady.act (h : Steady session done flight? waiting) (config : Config)
    (partition : PartitionId) (action : Action β) :
    ∃ done flight? waiting, Steady (session.act config partition action) done flight? waiting := by
  cases action with
  | collect event =>
    obtain ⟨waiting, hcollect⟩ := h.collect event
    exact ⟨done, flight?, waiting, hcollect⟩
  | look => exact ⟨done, flight?, waiting, h.look config.flushThreshold.toNat⟩
  | handOff =>
    obtain ⟨flight?, waiting, hhandOff⟩ := h.handOff
    exact ⟨done, flight?, waiting, hhandOff⟩
  | flush =>
    refine ⟨done, flight?, waiting, { h with
      returned := fun call hcall hphase ↦ ?_
      begun := fun call hcall ↦ ?_
      draining := fun call hcall hphase ↦ ?_ }⟩ <;>
      rcases List.mem_append.mp hcall with hcall | hcall
    · exact h.returned call hcall hphase
    · rw [List.mem_singleton.mp hcall] at hphase
      exact nomatch hphase
    · exact h.begun call hcall
    · rw [List.mem_singleton.mp hcall]
      exact Nat.le_refl _
    · exact h.draining call hcall hphase
    · rw [List.mem_singleton.mp hcall] at hphase
      exact nomatch hphase
  | advance call => exact ⟨done, flight?, waiting, h.advance call⟩
  | work =>
    obtain ⟨done, flight?, hwork⟩ := h.work config partition
    exact ⟨done, flight?, waiting, hwork⟩
  | wait milliseconds => exact ⟨done, flight?, waiting, { h with }⟩
  | exchange store => exact ⟨done, flight?, waiting, { h with }⟩

theorem Steady.run (h : Steady session done flight? waiting) (config : Config)
    (partition : PartitionId) (actions : List (Action β)) :
    ∃ done flight? waiting, Steady (session.run config partition actions) done flight? waiting := by
  induction actions generalizing session done flight? waiting with
  | nil => exact ⟨done, flight?, waiting, h⟩
  | cons action actions ih =>
    obtain ⟨done, flight?, waiting, hact⟩ := h.act config partition action
    exact ih hact

/-- In every order of steps each event collected is in exactly one place, and the places follow one
another in the order of collection. -/
theorem run_account (config : Config) (partition : PartitionId) (store : β)
    (actions : List (Action β)) : ∃ done flight? waiting,
      Account ((start store).run config partition actions) done flight? waiting := by
  obtain ⟨done, flight?, waiting, hsteady⟩ := (steady_start store).run config partition actions
  exact ⟨done, flight?, waiting, hsteady.toAccount⟩

end

end Session

end Flusher

end LogSequencing
