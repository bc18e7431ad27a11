import LogSequencing.Proofs.Registry.Session
import Mathlib.Data.List.Perm.Subperm
import Mathlib.Data.List.Rotate

/-!
# One sequencer after the other

A registry asks each sequencer at most once to shut down, so that one that is finished stays so. Hence
a partition never has two sequencers that are not finished, unless it is deployed again while the
sequencer that was removed is not yet finished (`Session.run_hasSingles_iff`), as nothing prevents
(`Session.redeploying_overtakes`).
-/

set_option autoImplicit false
set_option relaxedAutoImplicit false

namespace LogSequencing

namespace Sequencer

variable {s after : Sequencer} {reply : Reply} {progress : Progress}

theorem ClientMove.partition (h : ClientMove s reply after) : after.partition = s.partition := by
  cases h <;> rfl

theorem shutdownStep_partition {phase : ShutdownPhase}
    (hstep : s.shutdownStep? phase = some (progress, after)) : after.partition = s.partition := by
  cases shutdownMove_of_step hstep <;> rfl

namespace Session

variable {β σ : Type} [Backend β] [LogSource σ] {session : Session β σ} {action : Action β σ}

theorem partition_act (session : Session β σ) (action : Action β σ) :
    (session.act action).2.sequencer.partition = session.sequencer.partition := by
  have hmoved := session.turn_of_act action
  generalize (session.act action).2 = after at hmoved ⊢
  cases hmoved with
  | client calls hmove => exact hmove.partition
  | shutdown hcall hstep => exact shutdownStep_partition hstep
  | recovery hstep =>
    obtain ⟨recovery, counters, status, rfl, -⟩ := recoveryStep_eq hstep
    rfl
  | work hstep =>
    obtain ⟨-, flusher, rfl, -⟩ := workerStep_keeps hstep
    rfl
  | request | pass => rfl

/-- Nobody shuts a sequencer down unless a shutdown is asked for. -/
theorem phases_act (h : session.phases = []) (haction : action ≠ .invoke .shutdown) :
    (session.act action).2.phases = [] := by
  have hnone : session.phases = (none : Option ShutdownPhase).toList := h
  have hmoved := session.turn_of_act action
  generalize (session.act action).2 = after at hmoved ⊢
  cases hmoved with
  | client calls hmove hsame => exact hsame.trans h
  | request hshutdown => exact absurd hshutdown haction
  | shutdown hcall hstep => exact absurd (phases_shutdown hcall hnone).1 nofun
  | recovery | work | pass => exact h

end Session

end Sequencer

namespace Registry.Session

variable {β σ : Type} {session : Session β σ} {number index : Nat} {call : Call}

/-- Nobody is shutting the sequencer down. -/
def IsUnstopped (session : Session β σ) (number : Nat) : Prop :=
  ∀ calls, session.uses[number]? = some calls → calls.filterMap Progress.phase? = []

/-- A registry asks each sequencer at most once to shut down: one that is deployed, or that a call is
going to shut down, has not been asked to, and no two calls are going to shut down the same. -/
structure Sound (session : Session β σ) : Prop where
  size : session.uses.length = session.engine.sequencers.length
  orderly : ∀ (number : Nat) (s : Sequencer) (calls : List Progress),
    session.engine.sequencers[number]? = some s →
      session.uses[number]? = some calls →
        ∃ phase? : Option ShutdownPhase,
          calls.filterMap Progress.phase? = phase?.toList ∧ s.Stage phase?
  deployed : ∀ (partition : PartitionId) (number : Nat),
    session.registry.get? partition = some number →
      (∃ s, session.engine.sequencers[number]? = some s ∧ s.partition = partition) ∧
        session.IsUnstopped number
  due : ∀ number ∈ session.calls.flatMap Call.due,
    number < session.engine.sequencers.length ∧ session.IsUnstopped number ∧
      ∀ partition, session.registry.get? partition ≠ some number
  once : (session.calls.flatMap Call.due).Nodup

theorem sound_start (config : Config) (store : β) (log : σ) : (start config store log).Sound where
  size := rfl
  orderly _ _ _ hsequencer := nomatch hsequencer
  deployed partition number hnumber := by
    have hnone : (start config store log).registry.get? partition = none :=
      Std.ExtTreeMap.getElem?_empty
    exact absurd (hnone.symm.trans hnumber) nofun
  due _ hnumber := nomatch hnumber
  once := List.nodup_nil

/-! ### Calls on the registry -/

/-- What is due when one call has changed. -/
theorem exists_due_eq (hcall : session.calls[index]? = some call) :
    ∃ before later, session.calls.flatMap Call.due = before ++ call.due ++ later ∧
      ∀ next : Call, (session.calls.set index next).flatMap Call.due =
        before ++ next.due ++ later := by
  obtain ⟨before, later, hcalls, hset⟩ := exists_set_eq hcall
  refine ⟨before.flatMap Call.due, later.flatMap Call.due, ?_, fun next ↦ ?_⟩
  · rw [hcalls, List.flatMap_append, List.flatMap_cons, List.append_assoc]
  · rw [hset, List.flatMap_append, List.flatMap_cons, List.append_assoc]

/-- A call goes on that is not going to shut down any others than before. -/
theorem Sound.setCall (h : session.Sound) (hcall : session.calls[index]? = some call) {next : Call}
    (hdue : List.Subperm next.due call.due) : (session.setCall index next).Sound := by
  obtain ⟨before, later, hbefore, hafter⟩ := exists_due_eq hcall
  have hsubperm : List.Subperm ((session.calls.set index next).flatMap Call.due)
      (session.calls.flatMap Call.due) := by
    rw [hbefore, hafter]
    exact (List.subperm_append_right later).mpr ((List.subperm_append_left before).mpr hdue)
  refine ⟨h.size, h.orderly, h.deployed, fun number hnumber ↦ ?_, ?_⟩
  · exact h.due number (hsubperm.subset hnumber)
  · obtain ⟨same, hperm, hsublist⟩ := hsubperm
    exact hperm.nodup_iff.mp (h.once.sublist hsublist)

/-- A call takes sequencers out of the registry that it is going to shut down. -/
theorem Sound.release (h : session.Sound) (hcall : session.calls[index]? = some call)
    (hnothing : call.due = []) {numbers : List Nat} (hnodup : numbers.Nodup)
    (hnumbers : ∀ number ∈ numbers, ∃ partition,
      session.registry.get? partition = some number)
    {registry : Registry} (hregistry : ∀ partition number, registry.get? partition = some number →
      session.registry.get? partition = some number ∧ number ∉ numbers) :
    (Session.setCall { session with registry } index (.stopping numbers)).Sound := by
  obtain ⟨before, later, hbefore, hafter⟩ := exists_due_eq hcall
  rw [hnothing, List.append_nil] at hbefore
  have hmem (number : Nat)
      (hnumber : number ∈ (session.calls.set index (.stopping numbers)).flatMap Call.due) :
      number ∈ numbers ∨ number ∈ session.calls.flatMap Call.due := by
    rw [hafter] at hnumber
    rw [hbefore]
    simp only [List.mem_append, Call.due] at hnumber ⊢
    tauto
  refine ⟨h.size, h.orderly, fun partition number hnumber ↦
    h.deployed partition number (hregistry partition number hnumber).1, fun number hnumber ↦ ?_, ?_⟩
  · rcases hmem number hnumber with hhere | hthere
    · obtain ⟨partition, hdeployed⟩ := hnumbers number hhere
      obtain ⟨⟨s, hs, -⟩, hunstopped⟩ := h.deployed partition number hdeployed
      exact ⟨(List.getElem?_eq_some_iff.mp hs).1, hunstopped,
        fun other hother ↦ (hregistry other number hother).2 hhere⟩
    · obtain ⟨hsize, hunstopped, habsent⟩ := h.due number hthere
      exact ⟨hsize, hunstopped, fun other hother ↦ habsent other (hregistry other number hother).1⟩
  · have honce := h.once
    rw [hbefore] at honce
    show ((session.calls.set index (.stopping numbers)).flatMap Call.due).Nodup
    have hperm : (before ++ Call.due (.stopping numbers) ++ later).Perm
        (numbers ++ (before ++ later)) :=
      (List.perm_append_comm.append_right later).trans (.of_eq (List.append_assoc ..))
    rw [hafter, hperm.nodup_iff]
    refine List.nodup_append.mpr ⟨hnodup, honce, ?_⟩
    rintro number hhere _ hthere rfl
    obtain ⟨partition, hdeployed⟩ := hnumbers number hhere
    exact (h.due number (hbefore ▸ hthere)).2.2 partition hdeployed

/-! ### Use of a sequencer -/

variable [Backend β] [LogSource σ] {action : Sequencer.Session.Action β σ}

theorem use_cases (session : Session β σ) (number : Nat) (action : Sequencer.Session.Action β σ) :
    session.use number action = session ∨ ∃ view : Sequencer.Session β σ,
      session.engine.sequencers[number]? = some view.sequencer ∧
      session.uses[number]? = some view.calls ∧
      (session.use number action).engine.sequencers =
        session.engine.sequencers.set number (view.act action).2.sequencer ∧
      (session.use number action).uses = session.uses.set number (view.act action).2.calls ∧
      (session.use number action).registry = session.registry ∧
      (session.use number action).calls = session.calls := by
  unfold use view?
  cases hsequencer : session.engine.sequencers[number]? with
  | none => exact Or.inl rfl
  | some s =>
    cases hcalls : session.uses[number]? with
    | none => exact Or.inl rfl
    | some calls => exact Or.inr ⟨_, rfl, rfl, rfl, rfl, rfl, rfl⟩

/-- A sequencer is used, or asked to shut down for the first time. -/
theorem Sound.use (h : session.Sound)
    (hfirst : action = .invoke .shutdown → session.IsUnstopped number ∧
      (∀ partition, session.registry.get? partition ≠ some number) ∧
      number ∉ session.calls.flatMap Call.due) :
    (session.use number action).Sound := by
  rcases session.use_cases number action with hsame |
    ⟨view, hsequencer, hview, hsequencers, huses, hregistry, hcalls⟩
  · rw [hsame]
    exact h
  · have horderly : view.IsOrderly := h.orderly number _ _ hsequencer hview
    have hafter : (view.act action).2.IsOrderly :=
      horderly.act fun haction ↦ (hfirst haction).1 _ hview
    have hunstopped (other : Nat) (hother : session.IsUnstopped other)
        (hkept : action = .invoke .shutdown → other ≠ number) :
        (session.use number action).IsUnstopped other := by
      intro calls hcalls
      rw [huses, List.getElem?_set] at hcalls
      split_ifs at hcalls with hhere hsize
      · obtain rfl := Option.some.inj hcalls
        exact Sequencer.Session.phases_act (hother _ (hhere ▸ hview))
          fun haction ↦ hkept haction hhere.symm
      · exact hother calls hcalls
    refine ⟨?_, fun other s calls hs hcalls ↦ ?_, fun partition other hother ↦ ?_,
      fun other hother ↦ ?_, ?_⟩
    · rw [huses, hsequencers, List.length_set, List.length_set]
      exact h.size
    · rw [hsequencers, List.getElem?_set] at hs
      rw [huses, List.getElem?_set] at hcalls
      split_ifs at hs hcalls with hhere
      · obtain rfl := Option.some.inj hs
        obtain rfl := Option.some.inj hcalls
        exact hafter
      · exact h.orderly other s calls hs hcalls
    · rw [hregistry] at hother
      obtain ⟨⟨s, hs, hpartition⟩, hfree⟩ := h.deployed partition other hother
      refine ⟨?_, hunstopped other hfree fun haction hhere ↦ ?_⟩
      · rw [hsequencers, List.getElem?_set]
        split_ifs with hhere hsize
        · obtain rfl : s = view.sequencer := Option.some.inj (hs.symm.trans (hhere ▸ hsequencer))
          exact ⟨_, rfl, (view.partition_act action).trans hpartition⟩
        · exact absurd (List.getElem?_eq_some_iff.mp hsequencer).1 hsize
        · exact ⟨s, hs, hpartition⟩
      · exact (hfirst haction).2.1 partition (hhere ▸ hother)
    · rw [hcalls] at hother
      rw [hregistry]
      obtain ⟨hsize, hfree, habsent⟩ := h.due other hother
      refine ⟨?_, hunstopped other hfree fun haction hhere ↦ (hfirst haction).2.2 (hhere ▸ hother),
        habsent⟩
      rw [hsequencers, List.length_set]
      exact hsize
    · rw [hcalls]
      exact h.once

/-! ### Deploying -/

/-- A deploy that finds nothing adds a sequencer that begins to recover. -/
theorem create_of_none {partition : PartitionId}
    (hnone : session.registry.get? partition = none) :
    (session.create partition).2.engine.sequencers = session.engine.sequencers ++
        [(Sequencer.create partition session.registry.config).startRecovery] ∧
      (session.create partition).2.uses = session.uses ++ [[]] ∧
      (session.create partition).2.calls = session.calls ∧
      ∀ other, (session.create partition).2.registry.get? other =
        if partition = other then some session.engine.sequencers.length
        else session.registry.get? other := by
  have hadded : (session.engine.sequencers ++
      [Sequencer.create partition session.registry.config])[session.engine.sequencers.length]? =
        some (Sequencer.create partition session.registry.config) := List.getElem?_concat_length
  have hrecover : (Sequencer.create partition session.registry.config).recover =
      (.ok (), (Sequencer.create partition session.registry.config).startRecovery) := rfl
  unfold create
  simp only [Registry.deploy, hnone, Engine.create, Engine.request, hadded, hrecover, if_true]
  refine ⟨?_, trivial, trivial, fun other ↦ ?_⟩
  · exact List.set_append_right _ _ (Nat.le_refl _) |>.trans (by rw [Nat.sub_self]; rfl)
  · refine (Std.ExtTreeMap.getElem?_insert ..).trans ?_
    simp only [Std.LawfulEqCmp.compare_eq_iff_eq]
    rfl

theorem create_of_some {partition : PartitionId} {number : Nat}
    (hsome : session.registry.get? partition = some number) :
    (session.create partition).2 = session := by
  unfold create
  simp only [Registry.deploy, hsome, reduceCtorEq, if_false]

theorem Sound.create (h : session.Sound) (partition : PartitionId) :
    (session.create partition).2.Sound := by
  cases hget : session.registry.get? partition with
  | some number =>
    rw [create_of_some hget]
    exact h
  | none =>
    obtain ⟨hsequencers, huses, hcalls, hregistry⟩ := create_of_none hget
    have hsize := h.size
    have hunstopped (number : Nat) (hnumber : session.IsUnstopped number) :
        (session.create partition).2.IsUnstopped number := by
      intro calls hcalls
      rw [huses, List.getElem?_append] at hcalls
      split_ifs at hcalls
      · exact hnumber calls hcalls
      · obtain rfl := List.mem_singleton.mp (List.mem_of_getElem? hcalls)
        rfl
    refine ⟨?_, fun number s calls hs hnumber ↦ ?_, fun other number hother ↦ ?_,
      fun number hnumber ↦ ?_, hcalls ▸ h.once⟩
    · rw [huses, hsequencers, List.length_append, List.length_append, hsize]
      rfl
    · rw [hsequencers, List.getElem?_append] at hs
      rw [huses, List.getElem?_append, hsize] at hnumber
      split_ifs at hs hnumber
      · exact h.orderly number s calls hs hnumber
      · obtain rfl := List.mem_singleton.mp (List.mem_of_getElem? hs)
        obtain rfl := List.mem_singleton.mp (List.mem_of_getElem? hnumber)
        exact ⟨none, rfl, (Sequencer.stage_create partition _).client (.reopen (Or.inl rfl))⟩
    · rw [hregistry] at hother
      split_ifs at hother with hhere
      · obtain rfl := Option.some.inj hother
        refine ⟨⟨_, by rw [hsequencers]; exact List.getElem?_concat_length, hhere⟩, ?_⟩
        intro calls hnew
        rw [huses, ← hsize, List.getElem?_concat_length] at hnew
        obtain rfl := Option.some.inj hnew
        rfl
      · obtain ⟨⟨s, hs, hpartition⟩, hfree⟩ := h.deployed other number hother
        refine ⟨⟨s, ?_, hpartition⟩, hunstopped number hfree⟩
        rw [hsequencers, List.getElem?_append_left (List.getElem?_eq_some_iff.mp hs).1]
        exact hs
    · rw [hcalls] at hnumber
      obtain ⟨hbound, hfree, habsent⟩ := h.due number hnumber
      refine ⟨?_, hunstopped number hfree, fun other hother ↦ ?_⟩
      · rw [hsequencers, List.length_append]
        exact Nat.lt_add_right _ hbound
      · rw [hregistry] at hother
        split_ifs at hother
        · exact Nat.lt_irrefl _ (Option.some.inj hother ▸ hbound)
        · exact habsent other hother

theorem calls_create (session : Session β σ) (partition : PartitionId) :
    (session.create partition).2.calls = session.calls := by
  cases hget : session.registry.get? partition with
  | some number => rw [create_of_some hget]
  | none => exact (create_of_none hget).2.2.1

/-! ### Removing -/

omit [Backend β] [LogSource σ] in
/-- What is deployed is deployed for one partition. -/
theorem Sound.partition_unique (h : session.Sound) {partition other : PartitionId}
    (hhere : session.registry.get? partition = some number)
    (hthere : session.registry.get? other = some number) : partition = other := by
  obtain ⟨⟨s, hs, rfl⟩, -⟩ := h.deployed partition number hhere
  obtain ⟨⟨t, ht, rfl⟩, -⟩ := h.deployed other number hthere
  rw [Option.some.inj (hs.symm.trans ht)]

omit [Backend β] [LogSource σ] in
theorem Sound.remove (h : session.Sound) (hcall : session.calls[index]? = some call)
    (hnothing : call.due = []) (partition : PartitionId) :
    (Session.setCall { session with registry := (session.registry.remove partition).2 } index
      (.stopping (session.registry.remove partition).1.toList)).Sound := by
  have hremoved (number : Nat) : number ∈ (session.registry.remove partition).1.toList ↔
      session.registry.get? partition = some number := Option.mem_toList
  refine h.release hcall hnothing ?_ (fun number hnumber ↦ ⟨partition, (hremoved number).mp hnumber⟩)
    fun other number hnumber ↦ ?_
  · cases (session.registry.remove partition).1 with
    | none => exact List.nodup_nil
    | some number => exact List.nodup_singleton number
  · have herase : (session.registry.remove partition).2.get? other =
        if compare partition other = .eq then none else session.registry.get? other :=
      Std.ExtTreeMap.getElem?_erase
    rw [herase] at hnumber
    split_ifs at hnumber with hsame
    refine ⟨hnumber, fun hhere ↦ hsame ?_⟩
    exact Std.compare_eq_iff_eq.mpr (h.partition_unique ((hremoved number).mp hhere) hnumber)

omit [Backend β] [LogSource σ] in
theorem Sound.drain (h : session.Sound) (hcall : session.calls[index]? = some call)
    (hnothing : call.due = []) :
    (Session.setCall { session with registry := { session.registry with deployed := ∅ } } index
      (.stopping session.registry.deployed.values)).Sound := by
  have hvalues : session.registry.deployed.values =
      session.registry.deployed.toList.map Prod.snd := by
    have hfoldr : session.registry.deployed.values =
        session.registry.deployed.foldr (fun _ number numbers ↦ number :: numbers) [] := rfl
    rw [hfoldr, Std.ExtTreeMap.foldr_eq_foldr_toList]
    exact List.map_eq_foldr.symm
  have hdeployed {partition : PartitionId} {number : Nat}
      (hentry : (partition, number) ∈ session.registry.deployed.toList) :
      session.registry.get? partition = some number :=
    Std.ExtTreeMap.mem_toList_iff_getElem?_eq_some.mp hentry
  rw [hvalues]
  refine h.release hcall hnothing ?_ (fun number hnumber ↦ ?_) fun other number hnumber ↦ ?_
  · refine List.pairwise_map.mpr (Std.ExtTreeMap.distinct_keys_toList.imp_of_mem ?_)
    rintro ⟨partition, number⟩ ⟨other, _⟩ hhere hthere hother rfl
    have hsame := h.partition_unique (hdeployed hhere) (hdeployed hthere)
    exact hother (Std.compare_eq_iff_eq.mpr hsame)
  · obtain ⟨⟨partition, _⟩, hentry, rfl⟩ := List.mem_map.mp hnumber
    exact ⟨partition, hdeployed hentry⟩
  · have hempty : Registry.get? { session.registry with deployed := ∅ } other = none :=
      Std.ExtTreeMap.getElem?_empty
    exact absurd (hempty.symm.trans hnumber) nofun

/-! ### Any steps -/

omit [Backend β] [LogSource σ] in
/-- A call takes up the next of the sequencers that it is going to shut down. -/
theorem Sound.takeUp (h : session.Sound) {numbers rest : List Nat} {choice : Nat}
    (hcall : session.calls[index]? = some (.stopping numbers))
    (hrotate : numbers.rotate choice = number :: rest) (call : Nat) :
    (session.setCall index (.awaiting number call rest)).Sound ∧ session.IsUnstopped number ∧
      (∀ partition, session.registry.get? partition ≠ some number) ∧
      number ∉ (session.calls.set index (.awaiting number call rest)).flatMap Call.due := by
  have hperm : numbers.Perm (number :: rest) := hrotate ▸ (numbers.rotate_perm choice).symm
  have hrest : List.Subperm rest numbers :=
    (List.sublist_cons_self number rest).subperm.trans hperm.symm.subperm
  have hdue : number ∈ session.calls.flatMap Call.due :=
    List.mem_flatMap.mpr ⟨_, List.mem_of_getElem? hcall, hperm.mem_iff.mpr List.mem_cons_self⟩
  refine ⟨h.setCall hcall hrest, (h.due number hdue).2.1, (h.due number hdue).2.2, ?_⟩
  obtain ⟨before, later, hbefore, hafter⟩ := exists_due_eq hcall
  have hmoved : (before ++ numbers ++ later).Perm (number :: (before ++ rest ++ later)) :=
    ((hperm.append_left before).append_right later).trans (List.perm_middle.append_right later)
  have honce := h.once
  rw [hbefore] at honce
  rw [hafter]
  exact (List.nodup_cons.mp (hmoved.nodup_iff.mp honce)).1

theorem Sound.advance (h : session.Sound) (index choice : Nat) :
    (session.advance index choice).Sound := by
  unfold Session.advance
  cases hcall : session.calls[index]? with
  | none => exact h
  | some call =>
    cases call with
    | ended => exact h
    | getting partition => exact h.setCall hcall List.nil_subperm
    | deploying partition => dsimp only; split <;> exact h.setCall hcall List.nil_subperm
    | creating partition =>
      have hcall' : (session.create partition).2.calls[index]? = some (.creating partition) := by
        rw [calls_create, hcall]
      exact (h.create partition).setCall hcall' List.nil_subperm
    | undeploying partition => exact h.remove hcall rfl partition
    | draining => exact h.drain hcall rfl
    | stopping numbers =>
      dsimp only
      cases hrotate : numbers.rotate choice with
      | nil => exact h.setCall hcall List.nil_subperm
      | cons number rest =>
        obtain ⟨hsound, hfirst⟩ := h.takeUp hcall hrotate
          ((session.uses[number]?.map List.length).getD 0)
        exact hsound.use fun _ ↦ hfirst
    | awaiting number call rest =>
      dsimp only
      split
      · exact h
      · exact h.setCall hcall List.nil_subperm
      · exact h.setCall hcall (List.Subperm.refl rest)

/-- Nobody but the registry shuts a sequencer down. -/
def IsOwn (action : Action β σ) : Prop := ∀ number, action ≠ .use number (.invoke .shutdown)

theorem Sound.act (h : session.Sound) {action : Action β σ} (hown : IsOwn action) :
    (session.act action).Sound := by
  cases action with
  | invoke newCall =>
    have hdue : (session.calls ++ [newCall.call]).flatMap Call.due =
        session.calls.flatMap Call.due := by
      rw [List.flatMap_append]
      cases newCall <;> exact List.append_nil _
    refine ⟨h.size, h.orderly, h.deployed, fun number hnumber ↦ h.due number ?_, ?_⟩
    · exact hdue ▸ hnumber
    · exact hdue ▸ h.once
  | advance index choice => exact h.advance index choice
  | use number action => exact h.use fun haction ↦ absurd (congrArg _ haction) (hown number)

theorem Sound.run (h : session.Sound) {actions : List (Action β σ)}
    (hown : ∀ action ∈ actions, IsOwn action) : (session.run actions).Sound := by
  induction actions generalizing session with
  | nil => exact h
  | cons action actions ih =>
    exact ih (h.act (hown action List.mem_cons_self)) fun other hother ↦
      hown other (List.mem_cons_of_mem _ hother)

/-! ### Sequencers that are not finished -/

theorem Sound.live_of_use (h : session.Sound) {n : Nat} {partition : PartitionId}
    (hlive : (session.use number action).Live n partition) : session.Live n partition := by
  rcases session.use_cases number action with hsame |
    ⟨view, hsequencer, hview, hsequencers, -⟩
  · rwa [hsame] at hlive
  · obtain ⟨s, hs, hpartition, hstatus⟩ := hlive
    rw [hsequencers, List.getElem?_set] at hs
    split_ifs at hs with hhere
    · obtain rfl := Option.some.inj hs
      have horderly : view.IsOrderly := h.orderly number _ _ hsequencer hview
      refine ⟨view.sequencer, hhere ▸ hsequencer, (view.partition_act action).symm.trans hpartition,
        fun hfinished ↦ hstatus (horderly.act_finished hfinished action).1⟩
    · exact ⟨s, hs, hpartition, hstatus⟩

/-- Only a deploy brings a sequencer to life. -/
theorem Sound.live_of_act (h : session.Sound) {action : Action β σ} {n : Nat}
    {partition : PartitionId} (hlive : (session.act action).Live n partition) :
    session.Live n partition ∨ n = session.engine.sequencers.length ∧
      ∃ index choice, action = .advance index choice ∧
        session.calls[index]? = some (.creating partition) ∧
        session.registry.get? partition = none := by
  cases action with
  | invoke newCall => exact Or.inl hlive
  | use number action => exact Or.inl (h.live_of_use hlive)
  | advance index choice =>
    have hlive : (session.advance index choice).Live n partition := hlive
    unfold Session.advance at hlive
    cases hcall : session.calls[index]? with
    | none =>
      rw [hcall] at hlive
      exact Or.inl hlive
    | some call =>
      rw [hcall] at hlive
      cases call with
      | ended | getting | undeploying | draining => exact Or.inl hlive
      | deploying other => dsimp only at hlive; split at hlive <;> exact Or.inl hlive
      | creating other =>
        dsimp only at hlive
        cases hget : session.registry.get? other with
        | some number =>
          rw [create_of_some hget] at hlive
          exact Or.inl hlive
        | none =>
          obtain ⟨s, hs, hpartition, hstatus⟩ := hlive
          have hs : (session.create other).2.engine.sequencers[n]? = some s := hs
          rw [(create_of_none hget).1, List.getElem?_append] at hs
          split_ifs at hs with hbefore
          · exact Or.inl ⟨s, hs, hpartition, hstatus⟩
          · have hlast := (List.getElem?_eq_some_iff.mp hs).1
            rw [List.length_singleton] at hlast
            obtain rfl := List.mem_singleton.mp (List.mem_of_getElem? hs)
            obtain rfl : other = partition := hpartition
            exact Or.inr ⟨by omega, index, choice, rfl, hcall, hget⟩
      | stopping numbers =>
        dsimp only at hlive
        cases hrotate : numbers.rotate choice with
        | nil =>
          rw [hrotate] at hlive
          exact Or.inl hlive
        | cons number rest =>
          rw [hrotate] at hlive
          exact Or.inl ((h.takeUp hcall hrotate _).1.live_of_use hlive)
      | awaiting number call rest =>
        dsimp only at hlive
        split at hlive <;> exact Or.inl hlive

/-- No second sequencer of a partition comes to life unless a deploy overtakes. -/
theorem Sound.hasSingles_act (h : session.Sound) (hsingles : session.HasSingles)
    {action : Action β σ} (hwaits : ¬ session.Overtakes action) :
    (session.act action).HasSingles := by
  intro partition n m hn hm
  rcases h.live_of_act hn with hold | ⟨hlast, index, choice, rfl, hcall, hnone⟩
  · rcases h.live_of_act hm with hold' | ⟨-, index, choice, rfl, hcall, hnone⟩
    · exact hsingles partition n m hold hold'
    · exact absurd ⟨partition, n, hcall, hnone, hold⟩ hwaits
  · rcases h.live_of_act hm with hold' | ⟨hlast', -⟩
    · exact absurd ⟨partition, m, hcall, hnone, hold'⟩ hwaits
    · exact hlast.trans hlast'.symm

/-- A deploy that overtakes gives a partition a second sequencer. -/
theorem Overtakes.not_hasSingles {action : Action β σ} (h : session.Overtakes action) :
    ¬ (session.act action).HasSingles := by
  cases action with
  | invoke | use => exact h.elim
  | advance index choice =>
    obtain ⟨partition, number, hcall, hnone, s, hs, hpartition, hstatus⟩ := h
    have hsequencers : (session.act (.advance index choice)).engine.sequencers =
        session.engine.sequencers ++
          [(Sequencer.create partition session.registry.config).startRecovery] := by
      show (session.advance index choice).engine.sequencers = _
      unfold Session.advance
      rw [hcall]
      exact (create_of_none hnone).1
    have hbound := (List.getElem?_eq_some_iff.mp hs).1
    have hbefore : (session.act (.advance index choice)).Live number partition :=
      ⟨s, by rw [hsequencers, List.getElem?_append_left hbound, hs], hpartition, hstatus⟩
    have hcreated : (session.act (.advance index choice)).Live session.engine.sequencers.length
        partition :=
      ⟨_, by rw [hsequencers]; exact List.getElem?_concat_length, rfl, Status.noConfusion⟩
    exact fun hsingles ↦ Nat.ne_of_lt hbound (hsingles partition _ _ hbefore hcreated)

/-- However deploys, undeploys and shutdowns of a registry interleave, and whatever is done with its
sequencers, no partition ever has two sequencers that are not finished if and only if no deploy creates
one while another is not yet finished. -/
theorem run_hasSingles_iff (config : Config) (store : β) (log : σ) {actions : List (Action β σ)}
    (hown : ∀ action ∈ actions, IsOwn action) :
    (∀ first, first <+: actions → ((start config store log).run first).HasSingles) ↔
      ∀ first action, first ++ [action] <+: actions →
        ¬ ((start config store log).run first).Overtakes action := by
  have hrun (first : List (Action β σ)) (action : Action β σ) :
      (start config store log).run (first ++ [action]) =
        ((start config store log).run first).act action := List.foldl_append
  refine ⟨fun hsingles first action hfirst hovertakes ↦ ?_, fun hwaits first hfirst ↦ ?_⟩
  · exact hovertakes.not_hasSingles (hrun first action ▸ hsingles _ hfirst)
  · induction first using List.reverseRecOn with
    | nil => exact fun partition number other ⟨s, hs, _⟩ ↦ nomatch hs
    | append_singleton first action ih =>
      have hbefore : first <+: actions := (List.prefix_append first [action]).trans hfirst
      have hsound := (sound_start config store log).run fun other hother ↦
        hown other (hbefore.subset hother)
      rw [hrun]
      exact hsound.hasSingles_act (ih hbefore) (hwaits first action hfirst)

/-- A partition is undeployed, and deployed again while the shutdown goes on. -/
def redeploying : List (Action Rows MemoryLog) :=
  [.invoke (.deploy ⟨1⟩), .advance 0 0, .advance 0 0,
    .invoke (.undeploy ⟨1⟩), .advance 1 0, .advance 1 0,
    .invoke (.deploy ⟨1⟩), .advance 2 0, .advance 2 0]

theorem redeploying_overtakes :
    (∀ action ∈ redeploying, IsOwn action) ∧
      ¬ ∀ first, first <+: redeploying →
        ((start .default (∅ : Rows) MemoryLog.empty).run first).HasSingles := by
  have hown : ∀ action ∈ redeploying, IsOwn action := by simp [redeploying, IsOwn]
  refine ⟨hown, fun hsingles ↦ ?_⟩
  refine (run_hasSingles_iff .default ∅ .empty hown).mp hsingles redeploying.dropLast (.advance 2 0)
    (List.prefix_refl _) ⟨⟨1⟩, 0, ?_, ?_, ?_⟩
  all_goals decide +kernel

end Registry.Session

end LogSequencing
