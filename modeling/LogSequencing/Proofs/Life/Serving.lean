import LogSequencing.Proofs.Life.Draft
import LogSequencing.Proofs.Life.Outline

/-!
# Counters fit for service

`Serves Agrees` says that the counters from which a sequencer allocates agree with the log, in a sense
of agreement that is left open: at most those of the log, or the same, or the same down to the sets of
workspaces. A sense of agreement has to survive commits (`Agreement`). Then every move keeps the
counters in agreement, provided that a recovery which reads the checkpoint will come to counters that
agree (`Serves.move`).
-/

set_option autoImplicit false
set_option relaxedAutoImplicit false

namespace LogSequencing

/-- The counters of a log. -/
abbrev observed (events : List Event) : Counters := Counters.empty.observeAll events

theorem observed_append (first second : List Event) :
    observed (first ++ second) = (observed first).observeAll second :=
  Counters.observeAll_append _ first second

theorem observed_append_singleton (events : List Event) (event : Event) :
    observed (events ++ [event]) = (observed events).observe event :=
  observed_append events [event]

theorem observed_below_append (events more : List Event) :
    (observed events).Below (observed (events ++ more)) := by
  rw [observed_append]
  exact Counters.below_observeAll _ more

theorem observed_tight {events : List Event} (h : ∀ event ∈ events, event.usage.IsProper) :
    (observed events).IsTight := Counters.isTight_empty.observeAll h

/-- What holds of the log of a partition whatever happens. -/
structure Grounded (events : List Event) : Prop where
  proper : ∀ event ∈ events, event.usage.IsProper
  ascending : events.Pairwise fun earlier later ↦
    earlier.offset.val.toNat < later.offset.val.toNat
  /-- A workspace has no more events than the partition. -/
  balanced : ∀ event ∈ events, event.workspaceOffset.val.toNat ≤ event.offset.val.toNat
  /-- All numbers up to the last one of a sequence have been taken. -/
  dense : ∀ workspace kind n, kind ≠ .offset → 0 < n → n ≤ (observed events).lastOf workspace kind →
    ∃ event ∈ events, event.usage.Takes workspace kind n

theorem grounded_nil : Grounded [] where
  proper _ hevent := nomatch hevent
  ascending := List.Pairwise.nil
  balanced _ hevent := nomatch hevent
  dense workspace kind n _ hpos hle := by
    have hzero : (observed []).lastOf workspace kind = 0 := Counters.lastOf_empty workspace kind
    omega

theorem Grounded.balance {events : List Event} (h : Grounded events)
    (workspace other : WorkspaceId) :
    (observed events).lastOf workspace .workspaceOffset ≤ (observed events).lastOf other .offset := by
  refine (Counters.lastOf_observeAll_le_iff ..).mpr ⟨?_, fun event hevent taken htakes ↦ ?_⟩
  · rw [Counters.lastOf_empty]
    exact Nat.zero_le _
  · obtain ⟨-, rfl⟩ := htakes
    exact (h.balanced event hevent).trans (Counters.taken_le_observeAll _ hevent rfl)

/-- The counters are at most those of the log, and know the last offset of the partition. -/
structure Bounded (counters : Counters) (events : List Event) : Prop where
  below : counters.Below (observed events)
  offset_le : (observed events).offset.val.toNat ≤ counters.offset.val.toNat

theorem Bounded.balance {counters : Counters} {events : List Event} (h : Bounded counters events)
    (hgrounded : Grounded events) (workspace : WorkspaceId) :
    counters.lastOf workspace .workspaceOffset ≤ counters.offset.val.toNat :=
  (h.below workspace .workspaceOffset).trans
    ((hgrounded.balance workspace workspace).trans h.offset_le)

theorem Bounded.commit {base counters : Counters} {events : List Event} {usage : Usage}
    {event : Event} (h : Bounded base events) (hdrafted : Drafted base usage counters)
    (hfits : event.Fits usage) : Bounded counters (events ++ [event]) := by
  obtain ⟨hle, hge⟩ := hdrafted.below_observe hfits
  obtain ⟨hbase, htaken⟩ := (Counters.raised_observe base event .null .offset _).mp
    (hge .null .offset)
  constructor
  · rw [observed_append_singleton]
    exact hle.trans (h.below.observe event)
  · rw [observed_append_singleton]
    exact (Counters.raised_observe (observed events) event .null .offset _).mpr
      ⟨h.offset_le.trans hbase, htaken⟩

/-- The log keeps its form when an event is committed that was built on counters within bounds. -/
theorem Grounded.commit {base counters : Counters} {events : List Event} {usage : Usage}
    {event : Event} (h : Grounded events) (hbounded : Bounded base events)
    (hdrafted : Drafted base usage counters) (hfits : event.Fits usage) :
    Grounded (events ++ [event]) := by
  have hoffset : event.offset.val.toNat = base.offset.val.toNat + 1 := by
    rw [hfits.1, hdrafted.offset]
  have hworkspaceOffset : event.workspaceOffset.val.toNat =
      base.lastOf event.workspace .workspaceOffset + 1 := by
    rw [hfits.2.2.1, hfits.2.1, hdrafted.workspaceOffset]
  have hold : ∀ {event : Event}, event ∈ events → event.offset.val.toNat ≤ base.offset.val.toNat :=
    fun hevent ↦ (Counters.offset_le_observeAll .empty hevent).trans hbounded.offset_le
  constructor
  · intro other hother
    rcases List.mem_append.mp hother with hother | hother
    · exact h.proper other hother
    · exact List.mem_singleton.mp hother ▸ hdrafted.isProper hfits
  · refine List.pairwise_append.mpr ⟨h.ascending, List.pairwise_singleton _ _, ?_⟩
    intro other hother last hlast
    rw [List.mem_singleton.mp hlast, hoffset]
    exact Nat.lt_succ_of_le (hold hother)
  · intro other hother
    rcases List.mem_append.mp hother with hother | hother
    · exact h.balanced other hother
    · rw [List.mem_singleton.mp hother, hoffset, hworkspaceOffset]
      exact Nat.succ_le_succ (hbounded.balance h event.workspace)
  · intro workspace kind n hkind hpos hle
    by_cases hn : n ≤ (observed events).lastOf workspace kind
    · obtain ⟨other, hother, htakes⟩ := h.dense workspace kind n hkind hpos hn
      exact ⟨other, List.mem_append_left _ hother, htakes⟩
    · -- Beyond what the log had come to, the number was handed out for the new event.
      rw [observed_append_singleton] at hle
      obtain ⟨taken, htakes, htaken⟩ := Counters.exists_taken (Nat.lt_of_not_le hn) hle
      have hraised := (hdrafted.raised_event hfits workspace kind _).mp (Nat.le_refl _)
      have hcovered := hraised.2 taken htakes
      have hbase := hbounded.below workspace kind
      refine ⟨event, List.mem_append_right _ List.mem_cons_self, ?_⟩
      rcases kind with _ | _ | sequence
      · exact absurd rfl hkind
      · obtain ⟨hworkspace, rfl⟩ := htakes
        obtain rfl : event.workspace = workspace := hworkspace
        have hlast : n ≤ event.workspaceOffset.val.toNat := htaken
        exact ⟨rfl, by change n = event.workspaceOffset.val.toNat; omega⟩
      · obtain rfl : event.workspace = workspace := htakes.1
        have hfull := hdrafted.full sequence n
        rw [← hfits.2.1] at hfull
        obtain ⟨id, hid, hnumber⟩ := hfull (by omega) (by omega)
        exact ⟨rfl, id, hfits.2.2.2.mem_iff.mpr hid, hnumber.symm⟩

/-! ### Agreement with the log -/

/-- A sense in which counters agree with a log, which survives commits. -/
structure Agreement (Agrees : Counters → List Event → Prop) : Prop where
  bounded {counters : Counters} {events : List Event} (h : Agrees counters events) :
    Bounded counters events
  commit {base counters : Counters} {events : List Event} {usage : Usage} {event : Event}
    (h : Agrees base events) (hdrafted : Drafted base usage counters) (hfits : event.Fits usage) :
    Agrees counters (events ++ [event])

theorem agreement_bounded : Agreement Bounded := ⟨id, Bounded.commit⟩

/-- The counters from which a sequencer allocates, now or after a recovery that has come so far, agree
with the log. -/
structure Serves (Agrees : Counters → List Event → Prop) (o : Outline) : Prop where
  ready : o.status = .ready → o.draft? = none ∧ o.recovery.isAbsent ∧ Agrees o.counters o.events
  recovering : o.recovery.isAbsent = false → o.status ≠ .ready ∧ o.draft? = none
  drafting : ∀ usage, o.draft? = some ⟨usage, false⟩ →
    o.status = .eventing ∧ o.recovery.isAbsent ∧ usage.workspace = o.workspace ∧
      ∃ base, Agrees base o.events ∧ Drafted base usage o.counters
  committed : ∀ usage, o.draft? = some ⟨usage, true⟩ →
    o.status = .eventing ∧ o.recovery.isAbsent ∧ usage.workspace = o.workspace ∧
      Agrees o.counters o.events
  replaying : ∀ failures checkpoint, o.recovery = .readingLog failures checkpoint →
    Agrees (o.replayed checkpoint) o.events
  installing : ∀ counters, o.recovery = .installing counters → Agrees counters o.events
  quiet : o.isStopping = true → o.draft? = none

variable {Agrees : Counters → List Event → Prop} {partition : PartitionId} {o after : Outline}

theorem Serves.draft?_eq_none (h : Serves Agrees o) (hstatus : o.status ≠ .eventing) :
    o.draft? = none := by
  cases hdraft : o.draft? with
  | none => rfl
  | some draft =>
    obtain ⟨usage, _ | _⟩ := draft
    · exact absurd (h.drafting usage hdraft).1 hstatus
    · exact absurd (h.committed usage hdraft).1 hstatus

/-- Without an event in progress there is less to say. -/
theorem serves_between (hdraft : o.draft? = none)
    (hready : o.status = .ready → o.recovery.isAbsent ∧ Agrees o.counters o.events)
    (hrecovering : o.recovery.isAbsent = false → o.status ≠ .ready)
    (hreplaying : ∀ failures checkpoint, o.recovery = .readingLog failures checkpoint →
      Agrees (o.replayed checkpoint) o.events)
    (hinstalling : ∀ counters, o.recovery = .installing counters → Agrees counters o.events) :
    Serves Agrees o where
  ready hstatus := ⟨hdraft, hready hstatus⟩
  recovering hrunning := ⟨hrecovering hrunning, hdraft⟩
  drafting _ h := nomatch hdraft.symm.trans h
  committed _ h := nomatch hdraft.symm.trans h
  replaying := hreplaying
  installing := hinstalling
  quiet _ := hdraft

/-- A recovery begins. -/
theorem serves_reopened (hdraft : o.draft? = none) : Serves Agrees o.reopened :=
  serves_between hdraft nofun nofun nofun nofun

/-- A recovery goes on, whatever becomes of the counters meanwhile. -/
theorem Serves.goOn (h : Serves Agrees o) (hrunning : o.recovery.isAbsent = false)
    (counters : Counters) {recovery : RecoveryTask}
    (hreplaying : ∀ failures checkpoint, recovery = .readingLog failures checkpoint →
      Agrees (o.replayed checkpoint) o.events)
    (hinstalling : ∀ counters, recovery = .installing counters → Agrees counters o.events) :
    Serves Agrees { o with counters, recovery } := by
  obtain ⟨hstatus, hdraft⟩ := h.recovering hrunning
  exact serves_between hdraft (fun hready ↦ absurd hready hstatus) (fun _ ↦ hstatus) hreplaying
    hinstalling

theorem Serves.finished (h : Serves Agrees o) {usage : Usage}
    (hdraft : o.draft? = some ⟨usage, true⟩) : Serves Agrees o.finished := by
  obtain ⟨-, hrecovery, -, hagrees⟩ := h.committed usage hdraft
  exact serves_between rfl (fun _ ↦ ⟨hrecovery, hagrees⟩)
    (fun hrunning ↦ absurd (hrecovery.symm.trans hrunning) Bool.noConfusion) h.replaying h.installing

/-- Moves of the flusher do not touch what is served. -/
theorem Serves.congr (h : Serves Agrees o) (hevents : after.events = o.events)
    (hstatus : after.status = o.status) (hcounters : after.counters = o.counters)
    (hworkspace : after.workspace = o.workspace) (hrecovery : after.recovery = o.recovery)
    (hstopping : after.isStopping = o.isStopping) (hdraft : after.draft? = o.draft?) :
    Serves Agrees after := by
  cases o
  cases after
  simp only at hevents hstatus hcounters hworkspace hrecovery hstopping hdraft
  subst hevents hstatus hcounters hworkspace hrecovery hstopping hdraft
  exact ⟨h.1, h.2, h.3, h.4, h.5, h.6, h.7⟩

theorem Serves.reserve (h : Serves Agrees o) {workspace : WorkspaceId} {offset last : Offset}
    (hstopping : o.isStopping = false) (hstatus : o.status = .ready)
    (hoffset : o.counters.offset.next? = some offset)
    (hlast : (o.counters.workspaceOffset workspace).next? = some last) :
    Serves Agrees { o with
      workspace
      status := .eventing
      counters := { o.counters with
        offset, workspaceOffsets := o.counters.workspaceOffsets.insert workspace last }
      draft? := some ⟨⟨offset, workspace, last, []⟩, false⟩ } := by
  obtain ⟨-, hrecovery, hagrees⟩ := h.ready hstatus
  exact {
    ready := nofun
    recovering := fun hrunning ↦ absurd (hrecovery.symm.trans hrunning) Bool.noConfusion
    drafting := fun usage husage ↦ by
      obtain rfl := (Draft.mk.inj (Option.some.inj husage)).1
      exact ⟨rfl, hrecovery, rfl, o.counters, hagrees, drafted_reserve hoffset hlast⟩
    committed := nofun
    replaying := h.replaying
    installing := h.installing
    quiet := fun h ↦ by simp [hstopping] at h }

theorem Serves.takeId (h : Serves Agrees o) {sequence : IdSequence} {id : RecordId} {usage : Usage}
    (hdraft : o.draft? = some ⟨usage, false⟩)
    (hid : (o.counters.lastId sequence o.workspace).next? = some id) :
    Serves Agrees { o with
      counters := o.counters.setIds sequence ((o.counters.ids sequence).insert o.workspace id)
      draft? := some ⟨{ usage with ids := usage.ids ++ [(sequence, id)] }, false⟩ } := by
  obtain ⟨hstatus, hrecovery, hworkspace, base, hagrees, hdrafted⟩ := h.drafting usage hdraft
  rw [← hworkspace] at hid
  exact {
    ready := fun hready ↦ nomatch hstatus.symm.trans hready
    recovering := fun hrunning ↦ absurd (hrecovery.symm.trans hrunning) Bool.noConfusion
    drafting := fun other hother ↦ by
      obtain rfl := (Draft.mk.inj (Option.some.inj hother)).1
      exact ⟨hstatus, hrecovery, hworkspace, base, hagrees, hworkspace ▸ hdrafted.takeId hid⟩
    committed := fun _ hother ↦ nomatch (Draft.mk.inj (Option.some.inj hother)).2
    replaying := h.replaying
    installing := h.installing
    quiet := fun hstopping ↦ nomatch hdraft.symm.trans (h.quiet hstopping) }

theorem Serves.commit (h : Serves Agrees o) (hagreement : Agreement Agrees) {event : Event}
    {usage : Usage} (hdraft : o.draft? = some ⟨usage, false⟩) (hfits : event.Fits usage) :
    Serves Agrees { o with events := o.events ++ [event], draft? := some ⟨usage, true⟩ } := by
  obtain ⟨hstatus, hrecovery, hworkspace, base, hagrees, hdrafted⟩ := h.drafting usage hdraft
  have habsent : ∀ {recovery : RecoveryTask}, o.recovery = recovery → recovery.isAbsent = true :=
    fun heq ↦ heq ▸ hrecovery
  exact {
    ready := fun hready ↦ nomatch hstatus.symm.trans hready
    recovering := fun hrunning ↦ absurd (hrecovery.symm.trans hrunning) Bool.noConfusion
    drafting := fun _ hother ↦ nomatch (Draft.mk.inj (Option.some.inj hother)).2
    committed := fun other hother ↦ by
      obtain rfl := (Draft.mk.inj (Option.some.inj hother)).1
      exact ⟨hstatus, hrecovery, hworkspace, hagreement.commit hagrees hdrafted hfits⟩
    replaying := fun failures checkpoint hreading ↦ nomatch habsent hreading
    installing := fun counters hinstalling ↦ nomatch habsent hinstalling
    quiet := fun hstopping ↦ nomatch hdraft.symm.trans (h.quiet hstopping) }

/-- Counters stay in agreement with the log, if a checkpoint that is read leads to agreement. -/
theorem Serves.move (h : Serves Agrees o) (hagreement : Agreement Agrees)
    (hgrounded : Grounded o.events) (hmove : Move partition o after)
    (hread : ∀ failures checkpoint, o.recovery = .readingCheckpoint failures →
      (Checkpoint.readPartition o.rows partition).1 = .ok checkpoint →
      Agrees (o.replayed checkpoint) o.events) : Serves Agrees after := by
  cases hmove with
  | stay => exact h
  | begin hstatus => exact serves_reopened (h.draft?_eq_none (hstatus ▸ nofun))
  | refuse workspace hstatus =>
    obtain ⟨hdraft, -, -⟩ := h.ready hstatus
    exact serves_between hdraft (fun hready ↦ (h.ready hready).2)
      (fun hrunning ↦ (h.recovering hrunning).1) h.replaying h.installing
  | overrun workspace offset hstatus hoffset hlast =>
    -- A workspace cannot run out of offsets before the partition does.
    obtain ⟨-, -, hagrees⟩ := h.ready hstatus
    have hbalance := (hagreement.bounded hagrees).balance hgrounded workspace
    have hlt := Serial.lt_of_next? hoffset
    have hfull := Serial.toNat_of_next?_eq_none hlast
    rw [Counters.lastOf_workspaceOffset] at hbalance
    omega
  | reserve workspace offset last hstopping hstatus hoffset hlast =>
    exact h.reserve hstopping hstatus hoffset hlast
  | takeId sequence id usage hdraft hid => exact h.takeId hdraft hid
  | commit event usage hdraft hfits => exact h.commit hagreement hdraft hfits
  | finish usage hstopping hdraft => exact h.finished hdraft
  | finishAndSend usage hstopping hdraft hactive =>
    exact (h.finished hdraft).congr rfl rfl rfl rfl rfl rfl rfl
  | cancel usage hdraft => exact serves_between rfl nofun nofun nofun nofun
  | wander recovery hrecovery hidle =>
    refine h.goOn hrecovery o.counters (fun _ _ hreading ↦ ?_) fun _ hinstalling ↦ ?_
    · exact nomatch hidle.symm.trans (congrArg RecoveryTask.holds? hreading)
    · exact nomatch hidle.symm.trans (congrArg RecoveryTask.holds? hinstalling)
  | clear failures hrecovery => exact h.goOn hrecovery .empty nofun nofun
  | readCheckpoint failures checkpoint hrecovery hcheckpoint =>
    refine h.goOn (hrecovery ▸ rfl) o.counters (fun _ other hreading ↦ ?_) nofun
    obtain ⟨-, rfl⟩ := RecoveryTask.readingLog.inj hreading
    exact hread failures checkpoint hrecovery hcheckpoint
  | readLog failures checkpoint hrecovery =>
    refine h.goOn (hrecovery ▸ rfl) o.counters nofun fun counters hinstalling ↦ ?_
    obtain rfl := RecoveryTask.installing.inj hinstalling
    exact h.replaying failures checkpoint hrecovery
  | install counters hrecovery =>
    obtain ⟨-, hdraft⟩ := h.recovering (hrecovery ▸ rfl)
    exact serves_between hdraft (fun _ ↦ ⟨rfl, h.installing counters hrecovery⟩) nofun nofun nofun
  | land batch hcarried => exact h.congr rfl rfl rfl rfl rfl rfl rfl
  | abandon batch hstopping hcarried => exact h.congr rfl rfl rfl rfl rfl rfl rfl
  | lower hcarried => exact h.congr rfl rfl rfl rfl rfl rfl rfl
  | stop hstatus =>
    have hdraft := h.draft?_eq_none hstatus
    exact ⟨h.ready, h.recovering, h.drafting, h.committed, h.replaying, h.installing, fun _ ↦ hdraft⟩
  | send hstopping hcount hactive => exact h.congr rfl rfl rfl rfl rfl rfl rfl
  | retire hstopping =>
    exact serves_between (h.quiet hstopping) nofun (fun _ ↦ nofun) h.replaying h.installing

theorem serves_restarted : Serves Agrees o.restarted :=
  serves_between rfl nofun nofun nofun nofun

theorem Serves.lapse (hlapse : Lapse o after) : Serves Agrees after := by
  cases hlapse with
  | crash => exact serves_restarted
  | cancelCommitted usage hdraft => exact serves_between rfl nofun nofun nofun nofun

end LogSequencing
