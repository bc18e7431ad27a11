import LogSequencing.Proofs.RecoveryPoint
import LogSequencing.Proofs.Storage.Lawful
import LogSequencing.Proofs.Views

/-!
# Keeping a recovery point

A consumer loads the recovery point of its partition, updates it and saves it from time to time. Only
what has changed is written, so what is loaded later rests on the whole history. It is right because at
any time the rows with the changed workspaces laid over them are the point (`Overlays`): an update
changes what lies on top, a save that lands moves it into the rows (`Overlays.keeps_save`), and one that
fails leaves both as they are (`Consumer.run_isSound`).
-/

set_option autoImplicit false
set_option relaxedAutoImplicit false

namespace LogSequencing

namespace RecoveryPoint

variable {partition : PartitionId} {rows : Rows} {content : WorkspaceId → Option WorkspacePoint}
  {point : RecoveryPoint}

/-- The rows of a partition's recovery point were written by saving points and in no other way. -/
inductive OnlySaved (partition : PartitionId) : Rows → Prop
  | fresh {rows : Rows} (hfree : ∀ key, (range partition).storedStart <+: key → rows[key]? = none) :
      OnlySaved partition rows
  | save {rows : Rows} (hsaved : OnlySaved partition rows) (point : RecoveryPoint) :
      OnlySaved partition (rows.insertAll (point.changedRows.map points.encodeRow))
  | elsewhere {rows : Rows} (hsaved : OnlySaved partition rows) (batch : List Row)
      (helsewhere : ∀ row ∈ batch, ¬ (range partition).storedStart <+: row.1) :
      OnlySaved partition (rows.insertAll batch)

theorem OnlySaved.exists_keeps (h : OnlySaved partition rows) :
    ∃ content : WorkspaceId → Option WorkspacePoint, (range partition).Keeps rows content := by
  induction h with
  | fresh hfree => exact ⟨_, KeyRange.keeps_nothing hfree⟩
  | save _ point ih =>
    obtain ⟨content, hkeeps⟩ := ih
    exact ⟨_, ViewWrite.keeps_write (ViewWrite.gives_points partition (.save point)) hkeeps⟩
  | elsewhere _ batch helsewhere ih =>
    obtain ⟨content, hkeeps⟩ := ih
    exact ⟨content, hkeeps.insertAll_elsewhere helsewhere⟩

/-! ### Updates -/

theorem partition_update (point : RecoveryPoint) (offset : Offset) (workspace : WorkspaceId)
    (workspacePoint : WorkspacePoint) :
    (point.update offset workspace workspacePoint).partition = point.partition := by
  unfold RecoveryPoint.update
  split <;> rfl

theorem offset_update (point : RecoveryPoint) (offset : Offset) (workspace : WorkspaceId)
    (workspacePoint : WorkspacePoint) :
    (point.update offset workspace workspacePoint).offset = offset := by
  unfold RecoveryPoint.update
  split <;> rfl

theorem getElem?_update (point : RecoveryPoint) (offset : Offset) (workspace : WorkspaceId)
    (workspacePoint : WorkspacePoint) (other : WorkspaceId) :
    (point.update offset workspace workspacePoint).workspaces[other]? =
      if other = workspace ∧ other ≠ .null then some workspacePoint
      else point.workspaces[other]? := by
  by_cases hnull : workspace = .null
  · have hother : ¬ (other = workspace ∧ other ≠ .null) := fun h ↦ h.2 (h.1.trans hnull)
    rw [if_neg hother]
    simp [RecoveryPoint.update, Serial.isNull, hnull]
  · have hupdate : (point.update offset workspace workspacePoint).workspaces =
        point.workspaces.insert workspace workspacePoint := by
      simp [RecoveryPoint.update, Serial.isNull, hnull]
    rw [hupdate, getElem?_insert_eq_ite]
    by_cases hsame : other = workspace
    · subst hsame
      rw [if_pos rfl, if_pos ⟨rfl, hnull⟩]
    · rw [if_neg hsame, if_neg fun h ↦ hsame h.1]

theorem mem_changed_update (point : RecoveryPoint) (offset : Offset) (workspace : WorkspaceId)
    (workspacePoint : WorkspacePoint) (other : WorkspaceId) :
    other ∈ (point.update offset workspace workspacePoint).changed ↔
      other ∈ point.changed ∨ other = workspace ∧ other ≠ .null := by
  by_cases hnull : workspace = .null
  · simp [RecoveryPoint.update, Serial.isNull, hnull]
  · have hupdate : (point.update offset workspace workspacePoint).changed =
        point.changed.insert workspace := by
      simp [RecoveryPoint.update, Serial.isNull, hnull]
    rw [hupdate, mem_insert_iff_eq_or_mem]
    constructor
    · rintro (rfl | hother)
      · exact Or.inr ⟨rfl, hnull⟩
      · exact Or.inl hother
    · rintro (hother | ⟨rfl, -⟩)
      · exact Or.inr hother
      · exact Or.inl rfl

/-! ### Changes over rows -/

/-- A point is what the rows tell, with the changed workspaces laid over it. -/
structure Overlays (point : RecoveryPoint) (partition : PartitionId)
    (content : WorkspaceId → Option WorkspacePoint) : Prop where
  partition : point.partition = partition
  unchanged : ∀ workspace, workspace ∉ point.changed →
    point.workspaces[workspace]? = if workspace = .null then none else content workspace
  changed : ∀ workspace ∈ point.changed,
    workspace ≠ .null ∧ point.workspaces[workspace]?.isSome = true

theorem Tells.overlays (h : point.Tells partition content) : point.Overlays partition content where
  partition := h.partition
  unchanged workspace _ := h.workspaces workspace
  changed workspace hchanged := by
    rw [h.changed] at hchanged
    exact absurd hchanged Std.ExtTreeSet.not_mem_empty

theorem Overlays.getElem?_null (h : point.Overlays partition content) :
    point.workspaces[(.null : WorkspaceId)]? = none := by
  have hnull : (.null : WorkspaceId) ∉ point.changed := fun hchanged ↦ (h.changed _ hchanged).1 rfl
  exact (h.unchanged _ hnull).trans (if_pos rfl)

theorem Overlays.update (h : point.Overlays partition content) (offset : Offset)
    (workspace : WorkspaceId) (workspacePoint : WorkspacePoint) :
    (point.update offset workspace workspacePoint).Overlays partition content := by
  refine ⟨(partition_update ..).trans h.partition, fun other hother ↦ ?_, fun other hother ↦ ?_⟩
  · rw [mem_changed_update, not_or] at hother
    rw [getElem?_update, if_neg hother.2]
    exact h.unchanged other hother.1
  · rw [getElem?_update]
    rcases (mem_changed_update ..).mp hother with hother | hsame
    · refine ⟨(h.changed other hother).1, ?_⟩
      split
      · rfl
      · exact (h.changed other hother).2
    · rw [if_pos hsame]
      exact ⟨hsame.2, rfl⟩

/-- Every changed workspace has a row to be written, and so has the partition. -/
theorem Overlays.length_changedRows (h : point.Overlays partition content) :
    point.changedRows.length = point.changed.size + 1 := by
  have hall : ∀ workspace ∈ point.changed.toList,
      (point.workspaces[workspace]?.map fun workspacePoint ↦
        (rowKey point.partition workspace, workspacePoint)).isSome = true := by
    intro workspace hworkspace
    rw [Option.isSome_map]
    exact (h.changed workspace (Std.ExtTreeSet.mem_toList.mp hworkspace)).2
  rw [changedRows, List.length_append, List.filterMap_length_eq_length.mpr hall,
    Std.ExtTreeSet.length_toList, List.length_singleton]

/-- What the rows keep after a point was saved. -/
def savedContent (point : RecoveryPoint) (workspace : WorkspaceId) : Option WorkspacePoint :=
  if workspace = .null then some ⟨point.offset, .null, .null⟩ else point.workspaces[workspace]?

/-- What is to be written of a workspace. -/
def change? (point : RecoveryPoint) (workspace : WorkspaceId) : Option WorkspacePoint :=
  if workspace ∈ point.changed then point.workspaces[workspace]? else none

theorem lookup_writtenRows (point : RecoveryPoint) (workspace : WorkspaceId) :
    point.writtenRows.reverse.lookup workspace =
      if workspace = .null then some ⟨point.offset, .null, .null⟩
      else point.change? workspace := by
  rw [writtenRows, List.reverse_append, List.reverse_singleton, List.singleton_append]
  by_cases hnull : workspace = .null
  · rw [if_pos hnull, hnull, List.lookup_cons_self]
  rw [if_neg hnull, List.lookup_cons, beq_false_of_ne hnull]
  refine KeyRange.lookup_reverse_of_mem_iff ?_ workspace
  rintro ⟨other, workspacePoint⟩
  rw [List.mem_filterMap, change?]
  constructor
  · rintro ⟨workspace, hchanged, hpoint⟩
    obtain ⟨_, hpoint, heq⟩ := Option.map_eq_some_iff.mp hpoint
    obtain ⟨rfl, rfl⟩ := Prod.mk.inj heq
    rwa [if_pos (Std.ExtTreeSet.mem_toList.mp hchanged)]
  · intro hpoint
    split at hpoint
    · rename_i hchanged
      exact ⟨other, Std.ExtTreeSet.mem_toList.mpr hchanged, by rw [hpoint]; rfl⟩
    · contradiction

/-- A save that lands moves the changes into the rows. -/
theorem Overlays.keeps_save (h : point.Overlays partition content)
    (hkeeps : (range partition).Keeps rows content) :
    (range partition).Keeps (rows.insertAll (point.changedRows.map points.encodeRow))
      point.savedContent := by
  have hcontent : point.savedContent =
      fun workspace ↦ (point.writtenRows.reverse.lookup workspace).or (content workspace) := by
    funext workspace
    rw [lookup_writtenRows, savedContent]
    by_cases hnull : workspace = .null
    · simp only [if_pos hnull, Option.some_or]
    · simp only [if_neg hnull, change?]
      by_cases hchanged : workspace ∈ point.changed
      · obtain ⟨workspacePoint, hpoint⟩ :=
          Option.isSome_iff_exists.mp (h.changed workspace hchanged).2
        rw [if_pos hchanged, hpoint, Option.some_or]
      · rw [if_neg hchanged, Option.none_or, h.unchanged workspace hchanged, if_neg hnull]
  rw [hcontent, map_changedRows, h.partition]
  exact hkeeps.insertAll point.writtenRows

theorem Overlays.tells_save (h : point.Overlays partition content) :
    { point with changed := ∅ }.Tells partition point.savedContent where
  partition := h.partition
  offset := by simp [savedContent]
  workspaces workspace := by
    by_cases hnull : workspace = .null
    · subst hnull
      exact h.getElem?_null.trans (if_pos rfl).symm
    · simp only [savedContent, if_neg hnull]
  changed := rfl

/-- Only one point is what the rows tell. -/
theorem Tells.eq {other : RecoveryPoint} (h : point.Tells partition content)
    (hother : other.Tells partition content) : point = other := by
  obtain ⟨_, offset, workspaces, changed⟩ := point
  obtain ⟨_, offset', workspaces', changed'⟩ := other
  obtain ⟨rfl, hoffset, hworkspaces, rfl⟩ := h
  obtain ⟨rfl, hoffset', hworkspaces', rfl⟩ := hother
  obtain rfl : offset = offset' := hoffset.trans hoffset'.symm
  obtain rfl : workspaces = workspaces' :=
    Std.ExtTreeMap.ext_getElem? fun workspace ↦
      (hworkspaces workspace).trans (hworkspaces' workspace).symm
  rfl

/-- After a save that lands, the point is loaded with nothing changed. -/
theorem Overlays.load_save (h : point.Overlays partition content)
    (hkeeps : (range partition).Keeps rows content) :
    (load (rows.insertAll (point.changedRows.map points.encodeRow)) partition).1 =
      .ok { point with changed := ∅ } := by
  obtain ⟨stored, hload, htells⟩ := load_of_keeps (h.keeps_save hkeeps)
  rw [hload, htells.eq h.tells_save]

/-! ### Loading and saving where writes may fail -/

variable {β : Type} [Backend β] [LawfulBackend β]

/-- Without failures to come, a point is loaded as it stands in the rows. -/
theorem load_heal (store : Faulty β) (partition : PartitionId) :
    ∃ after : Faulty β, after.rows = store.rows ∧
      load store.heal partition = ((load store.rows partition).1, after) := by
  obtain ⟨after, hrows, ⟨error, hspend, -⟩ | hscan⟩ := store.heal.scan_cases
    (points.storedKey (Key.partitionStart partition))
  · exact absurd rfl hspend
  · refine ⟨after, hrows, ?_⟩
    simp only [load, Namespace.scan, hscan]
    rfl

/-- A save is one batch. It changes nothing if the batch fails, and otherwise nothing is changed any
more. -/
theorem save_cases (store : Faulty β) (point : RecoveryPoint) :
    let batch := point.changedRows.map points.encodeRow
    (∃ error after, Backend.batch store batch = (.error error, after) ∧
        after.rows = store.rows ∧ save store point = (.error error, point, after)) ∨
      ∃ after : Faulty β, Backend.batch store batch = (.ok (), after) ∧
        after.rows = store.rows.insertAll batch ∧
        save store point = (.ok (), { point with changed := ∅ }, after) := by
  intro batch
  rcases store.batch_cases batch with ⟨error, after, hbatch, hrows⟩ | ⟨after, hbatch, hrows⟩
  · refine Or.inl ⟨error, after, hbatch, hrows, ?_⟩
    simp only [save, Namespace.putBatch, hbatch, batch]
  · refine Or.inr ⟨after, hbatch, hrows, ?_⟩
    simp only [save, Namespace.putBatch, hbatch, batch]

/-- A workspace as it is to be written, and as it is stored where it is not. -/
def overlaid (point stored : RecoveryPoint) (workspace : WorkspaceId) : Option WorkspacePoint :=
  (point.change? workspace).or stored.workspaces[workspace]?

theorem Overlays.overlaid_eq (h : point.Overlays partition content) {stored : RecoveryPoint}
    (hstored : stored.Tells partition content) (workspace : WorkspaceId) :
    point.overlaid stored workspace = point.workspaces[workspace]? := by
  unfold overlaid change?
  by_cases hchanged : workspace ∈ point.changed
  · obtain ⟨workspacePoint, hpoint⟩ := Option.isSome_iff_exists.mp (h.changed workspace hchanged).2
    rw [if_pos hchanged, hpoint, Option.some_or]
  · rw [if_neg hchanged, Option.none_or, hstored.workspaces, h.unchanged workspace hchanged]

end RecoveryPoint

/-- A consumer of a partition's log: the recovery point that it holds, and where it saves it. -/
structure Consumer (β : Type) where
  point : RecoveryPoint
  store : Faulty β

inductive ConsumerAction where
  | update (offset : Offset) (workspace : WorkspaceId) (workspacePoint : WorkspacePoint)
  | save
  /-- So many of the writes to come are to fail. -/
  | failWrites (budget : FailureBudget)
deriving Repr

namespace Consumer

open RecoveryPoint

variable {β : Type} [Backend β]

def act (consumer : Consumer β) : ConsumerAction → Consumer β
  | .update offset workspace workspacePoint =>
    { consumer with point := consumer.point.update offset workspace workspacePoint }
  | .save =>
    let (_, point, store) := consumer.point.save consumer.store
    ⟨point, store⟩
  | .failWrites budget => { consumer with store := { consumer.store with writes := budget } }

def run (consumer : Consumer β) (actions : List ConsumerAction) : Consumer β :=
  actions.foldl act consumer

variable [LawfulBackend β]

/-- What a consumer can rely on at any time, whatever it has done and whatever has failed. -/
structure IsSound (consumer : Consumer β) (partition : PartitionId) : Prop where
  /-- The stored workspaces with the changed ones laid over them are those of the point. -/
  overlaid : ∃ stored after, load consumer.store.heal partition = (.ok stored, after) ∧
    stored.changed = ∅ ∧
    ∀ workspace, consumer.point.overlaid stored workspace = consumer.point.workspaces[workspace]?
  /-- A save is one batch, with a row for each changed workspace and one for the partition. -/
  save_eq : ∃ batch : List Row, batch.length = consumer.point.changed.size + 1 ∧
    (consumer.point.save consumer.store).1 = (Backend.batch consumer.store batch).1 ∧
    (consumer.point.save consumer.store).2.2 = (Backend.batch consumer.store batch).2
  /-- After a save the point is loaded with nothing changed, and held so. -/
  saved : ∀ point after, consumer.point.save consumer.store = (.ok (), point, after) →
    point = { consumer.point with changed := ∅ } ∧
    ∃ later, load after.heal partition = (.ok point, later)
  /-- A save that fails changes neither the rows nor the point. -/
  refused : ∀ error point after, consumer.point.save consumer.store = (.error error, point, after) →
    point = consumer.point ∧ after.rows = consumer.store.rows

/-- The point of a consumer lies over the rows of its store. -/
def Stands (consumer : Consumer β) (partition : PartitionId) : Prop :=
  ∃ content : WorkspaceId → Option WorkspacePoint,
    (range partition).Keeps consumer.store.rows content ∧
    consumer.point.Overlays partition content

variable {consumer : Consumer β} {partition : PartitionId}

theorem Stands.isSound (h : consumer.Stands partition) : consumer.IsSound partition := by
  obtain ⟨content, hkeeps, hoverlays⟩ := h
  have hsave := save_cases consumer.store consumer.point
  refine ⟨?_, ?_, ?_, ?_⟩
  · obtain ⟨stored, hload, htells⟩ := load_of_keeps hkeeps
    obtain ⟨after, -, hheal⟩ := load_heal consumer.store partition
    refine ⟨stored, after, ?_, htells.changed, hoverlays.overlaid_eq htells⟩
    rw [hheal, hload]
  · refine ⟨consumer.point.changedRows.map points.encodeRow, ?_, ?_⟩
    · rw [List.length_map, hoverlays.length_changedRows]
    · rcases hsave with ⟨error, after, hbatch, -, hsave⟩ | ⟨after, hbatch, -, hsave⟩
      · simp only [hsave, hbatch, and_self]
      · simp only [hsave, hbatch, and_self]
  · intro point after hok
    rcases hsave with ⟨error, _, -, -, hsave⟩ | ⟨_, -, hrows, hsave⟩
    · exact absurd (hok.symm.trans hsave) (by simp)
    · obtain ⟨rfl, rfl⟩ : point = _ ∧ after = _ := by simpa using hok.symm.trans hsave
      refine ⟨rfl, ?_⟩
      obtain ⟨later, -, hheal⟩ := load_heal after partition
      refine ⟨later, ?_⟩
      rw [hheal, hrows, hoverlays.load_save hkeeps]
  · intro error point after herror
    rcases hsave with ⟨_, _, -, hrows, hsave⟩ | ⟨_, -, -, hsave⟩
    · obtain ⟨-, rfl, rfl⟩ : error = _ ∧ point = _ ∧ after = _ := by
        simpa using herror.symm.trans hsave
      exact ⟨rfl, hrows⟩
    · exact absurd (herror.symm.trans hsave) (by simp)

theorem Stands.act (h : consumer.Stands partition) (action : ConsumerAction) :
    (consumer.act action).Stands partition := by
  obtain ⟨content, hkeeps, hoverlays⟩ := h
  cases action with
  | update offset workspace workspacePoint =>
    exact ⟨content, hkeeps, hoverlays.update offset workspace workspacePoint⟩
  | save =>
    rcases save_cases consumer.store consumer.point with
      ⟨error, after, -, hrows, hsave⟩ | ⟨after, -, hrows, hsave⟩
    · simp only [Consumer.act, hsave]
      exact ⟨content, hrows ▸ hkeeps, hoverlays⟩
    · simp only [Consumer.act, hsave]
      exact ⟨_, hrows ▸ hoverlays.keeps_save hkeeps, hoverlays.tells_save.overlays⟩
  | failWrites budget => exact ⟨content, hkeeps, hoverlays⟩

theorem Stands.run (h : consumer.Stands partition) (actions : List ConsumerAction) :
    (consumer.run actions).Stands partition := by
  induction actions generalizing consumer with
  | nil => exact h
  | cons action actions ih => exact ih (h.act action)

/-- **Recovery points survive.** A consumer that begins with the stored point may update it and save it
as often as it likes, and any of the writes may fail: what it holds and what is stored fit together at
any time, a save that lands stores just what it holds, and one that fails changes nothing. -/
theorem run_isSound {store : Faulty β} (hsaved : OnlySaved partition store.rows) :
    ∃ point opened, load store.heal partition = (.ok point, opened) ∧
      ∀ actions, IsSound (run ⟨point, opened⟩ actions) partition := by
  obtain ⟨content, hkeeps⟩ := hsaved.exists_keeps
  obtain ⟨point, hload, htells⟩ := load_of_keeps hkeeps
  obtain ⟨opened, hrows, hheal⟩ := load_heal store partition
  refine ⟨point, opened, ?_, fun actions ↦ ?_⟩
  · rw [hheal, hload]
  · exact (Stands.run ⟨content, hrows ▸ hkeeps, htells.overlays⟩ actions).isSound

/-- A point saved before, beside that of another partition. -/
def savedBefore : Rows :=
  (Rows.empty.insertAll ((((RecoveryPoint.empty ⟨1⟩).update ⟨4⟩ ⟨10⟩ ⟨⟨2⟩, ⟨7⟩, .null⟩).changedRows).map
    points.encodeRow)).insertAll
    ((((RecoveryPoint.empty ⟨11⟩).update ⟨9⟩ ⟨10⟩ ⟨⟨1⟩, .null, .null⟩).changedRows).map
      points.encodeRow)

/-- A consumer whose first two saves fail. -/
def unlucky : List ConsumerAction :=
  [.failWrites (.times 2), .update ⟨5⟩ ⟨20⟩ ⟨⟨1⟩, ⟨3⟩, .null⟩, .save,
    .update ⟨6⟩ .null ⟨⟨99⟩, ⟨99⟩, ⟨99⟩⟩, .save, .update ⟨7⟩ ⟨10⟩ ⟨⟨3⟩, ⟨8⟩, ⟨1⟩⟩, .save]

theorem unlucky_isSound :
    OnlySaved ⟨1⟩ savedBefore ∧
      ∃ point opened, load (Faulty.ofBackend savedBefore).heal ⟨1⟩ = (.ok point, opened) ∧
        IsSound (run ⟨point, opened⟩ unlucky) ⟨1⟩ := by
  have hsaved : OnlySaved ⟨1⟩ (Faulty.ofBackend savedBefore).rows :=
    ((OnlySaved.fresh fun _ _ ↦ Std.ExtTreeMap.getElem?_empty).save _).save _
  obtain ⟨point, opened, hload, hrun⟩ := run_isSound hsaved
  exact ⟨hsaved, point, opened, hload, hrun unlucky⟩

end Consumer

end LogSequencing
