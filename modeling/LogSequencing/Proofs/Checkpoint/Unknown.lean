import LogSequencing.Proofs.Checkpoint.Replay
import LogSequencing.Proofs.Storage.Malformed

/-!
# Rows of unknown sequences

A row under the name of no sequence is left out of the counters, but its value is read like any
other (`Namespace.scan_insert_cases`). So such a row makes no difference to what is read, unless its
value is malformed and stands before all others that are: then the partition cannot be read, and no
counters can be rebuilt (`Checkpoint.read_insert_unknown`).
-/

set_option autoImplicit false
set_option relaxedAutoImplicit false

namespace LogSequencing

/-! ### Workspaces in keys -/

theorem Decimal.isDigit_of_readFrom {cs : List Char} {value n : Nat}
    (h : readFrom value cs = .ok n) : ∀ c ∈ cs, c.isDigit = true := by
  induction cs generalizing value with
  | nil => exact fun _ hc ↦ absurd hc List.not_mem_nil
  | cons first rest ih =>
    rw [readFrom] at h
    dsimp only at h
    split_ifs at h with hdigit
    exact List.forall_mem_cons.mpr ⟨hdigit, ih h⟩

/-- Of all characters, only digits and a plus sign stand in a number. -/
theorem Decimal.eq_plus_or_isDigit_of_read {cs : List Char} {n : UInt64} (h : read cs = .ok n) :
    ∀ c ∈ cs, c = '+' ∨ c.isDigit = true := by
  unfold read at h
  split at h
  · contradiction
  · contradiction
  · rename_i rest _
    cases hread : readFrom 0 rest with
    | error fault => exact absurd (hread ▸ h) nofun
    | ok value =>
      exact List.forall_mem_cons.mpr
        ⟨Or.inl rfl, fun c hc ↦ Or.inr (isDigit_of_readFrom hread c hc)⟩
  · cases hread : readFrom 0 cs with
    | error fault => exact absurd (hread ▸ h) nofun
    | ok value => exact fun c hc ↦ Or.inr (isDigit_of_readFrom hread c hc)

theorem Key.colon_notMem_of_readWorkspace {octets : Octets} {workspace : WorkspaceId}
    (h : readWorkspace octets = .ok workspace) : (0x3a : UInt8) ∉ octets := by
  intro hcolon
  unfold readWorkspace at h
  cases hread : Decimal.read (Octets.toChars octets) with
  | error fault => exact absurd (hread ▸ h) nofun
  | ok n =>
    have hchar := Decimal.eq_plus_or_isDigit_of_read hread _ (List.mem_map_of_mem hcolon)
    exact absurd hchar (by decide)

/-! ### One more value -/

namespace Namespace

variable {α : Type} [Json.Stored α] {ns : Namespace} {rows : Rows} {start key : Octets}

variable (α) in
/-- A malformed row before all other malformed ones whose keys begin alike. -/
structure IsFirstMalformed (ns : Namespace) (start : Octets) (rows : Rows) (row : Row) : Prop where
  isMalformed : IsMalformed α row
  earlier : ∀ key value, rows[key]? = some value → ns.storedKey start <+: key → key < row.1 →
    ¬ IsMalformed α (key, value)

/-- A scan that finds one more row fails if this is the first that is malformed. Otherwise it fails
as it did before, or it reads one more value. -/
theorem scan_insert_cases (hnew : rows[key]? = none) (hstarts : ns.storedKey start <+: key)
    (value : Octets) :
    (IsFirstMalformed α ns start rows (key, value) ∧
        (ns.scan (α := α) (rows.insert key value) start).1 = .error (ns.complaint (key, value))) ∨
      ¬ IsFirstMalformed α ns start rows (key, value) ∧
        ((∃ error, (ns.scan (α := α) rows start).1 = .error error ∧
            (ns.scan (α := α) (rows.insert key value) start).1 = .error error) ∨
          ∃ before last after, (ns.scan (α := α) rows start).1 = .ok (before ++ after) ∧
            (ns.scan (α := α) (rows.insert key value) start).1 =
              .ok (before ++ (key.drop ns.start.length, last) :: after)) := by
  obtain ⟨before, after, hscan, hextended, hlesser, hgreater⟩ :=
    Rows.exists_scan_insert hnew hstarts value
  have hread : (ns.scan (α := α) rows start).1 = (before ++ after).mapM ns.decodeRow :=
    congrArg (List.mapM ns.decodeRow) hscan
  have hreadExtended : (ns.scan (α := α) (rows.insert key value) start).1 =
      (before ++ (key, value) :: after).mapM ns.decodeRow :=
    congrArg (List.mapM ns.decodeRow) hextended
  rw [hread, hreadExtended, List.mapM_append, List.mapM_append, List.mapM_cons]
  have hmem (row : Row) (hrow : row ∈ before) :
      rows[row.1]? = some row.2 ∧ ns.storedKey start <+: row.1 :=
    Rows.mem_scan_iff.mp (hscan ▸ List.mem_append_left after hrow)
  rcases mapM_decodeRow_cases (α := α) ns before with
    ⟨values, hvalues, hbefore⟩ | ⟨_, row, _, hitems, -, hrow, herror⟩
  · by_cases hmalformed : IsMalformed α (key, value)
    · refine Or.inl ⟨⟨hmalformed, fun other found hfound hother hlt ↦ ?_⟩, ?_⟩
      · have hscanned : (other, found) ∈ before ++ after :=
          hscan ▸ Rows.mem_scan_iff.mpr ⟨hfound, hother⟩
        rcases List.mem_append.mp hscanned with hearlier | hlater
        · exact hbefore _ hearlier
        · exact absurd (List.lt_trans hlt (hgreater _ hlater)) (List.lt_irrefl _)
      · rw [hvalues, decodeRow_of_isMalformed hmalformed]
        rfl
    · refine Or.inr ⟨fun hfirst ↦ hmalformed hfirst.isMalformed, ?_⟩
      obtain ⟨last, hlast⟩ := exists_decodeRow ns hmalformed
      rw [hvalues, hlast]
      cases hafter : (after.mapM ns.decodeRow : Except StorageError (List (Octets × α))) with
      | error error => exact Or.inl ⟨error, rfl, rfl⟩
      | ok others => exact Or.inr ⟨values, last, others, rfl, rfl⟩
  · have hbefore : row ∈ before := hitems ▸ List.mem_append_right _ List.mem_cons_self
    obtain ⟨hfound, hother⟩ := hmem row hbefore
    refine Or.inr ⟨fun hfirst ↦ ?_, Or.inl ⟨ns.complaint row, ?_, ?_⟩⟩
    · exact hfirst.earlier row.1 row.2 hfound hother (hlesser row hbefore) hrow
    · rw [herror]
      rfl
    · rw [herror]
      rfl

end Namespace

/-! ### Sequences of other names -/

namespace Checkpoint

theorem ofName?_eq_none {name : Octets}
    (h : ∀ kind : SequenceKind, name ≠ Octets.ofText kind.name) :
    SequenceKind.ofName? name = none :=
  List.find?_eq_none.mpr fun kind _ hname ↦ h kind (of_decide_eq_true hname).symm

/-- The key of a sequence of any name. -/
def namedKey (partition : PartitionId) (workspace name : Octets) : Octets :=
  Key.partitionStart partition ++ workspace ++ 0x3a :: name

variable {partition : PartitionId} {workspace name : Octets} {number : WorkspaceId}

theorem readKey_namedKey (hworkspace : Key.readWorkspace workspace = .ok number) :
    readKey (namedKey partition workspace name) = .ok (number, name) := by
  have hkey : namedKey partition workspace name =
      Key.number partition ++ 0x3a :: (workspace ++ 0x3a :: name) := by
    simp [namedKey, Key.partitionStart]
  have hpartition := Key.cut?_append (Key.colon_notMem_number partition)
    (workspace ++ 0x3a :: name)
  have hrest := Key.cut?_append (Key.colon_notMem_of_readWorkspace hworkspace) name
  simp only [readKey, hkey, hpartition, Option.bind_some, hrest, hworkspace]

theorem readRow_namedKey (hworkspace : Key.readWorkspace workspace = .ok number)
    (hname : ∀ kind : SequenceKind, name ≠ Octets.ofText kind.name) (counters : Counters)
    (last : StoredLast) :
    readRow counters (namedKey partition workspace name, last) = .ok counters := by
  have hkey : readKey (namedKey partition workspace name, last).1 = .ok (number, name) :=
    readKey_namedKey hworkspace
  rw [readRow_of_readKey hkey, ofName?_eq_none hname]
  rfl

theorem ofRows_insert {item : Octets × StoredLast}
    (hitem : ∀ counters, readRow counters item = .ok counters)
    (before after : List (Octets × StoredLast)) :
    ofRows (before ++ item :: after) = ofRows (before ++ after) := by
  simp only [ofRows, List.foldlM_append, List.foldlM_cons, hitem]
  rfl

theorem storedStart_isPrefix_namedKey (partition : PartitionId) (workspace name : Octets) :
    sequences.storedKey (Key.partitionStart partition) <+:
      sequences.storedKey (namedKey partition workspace name) := by
  rw [namedKey, List.append_assoc]
  exact (List.prefix_append_right_inj _).mpr (List.prefix_append _ _)

/-- A new row of an unknown sequence is either the first malformed one, and then it is the error, or
the rows are read as without it. -/
theorem readPartition_insert_unknown {rows : Rows}
    (hworkspace : Key.readWorkspace workspace = .ok number)
    (hname : ∀ kind : SequenceKind, name ≠ Octets.ofText kind.name)
    (hnew : rows[sequences.storedKey (namedKey partition workspace name)]? = none)
    (value : Octets) :
    let row := (sequences.storedKey (namedKey partition workspace name), value)
    let extended : Rows := rows.insert row.1 row.2
    let IsFirst := sequences.IsFirstMalformed StoredLast (Key.partitionStart partition) rows row
    (IsFirst →
        (readPartition extended partition).1 = .error (.storage (sequences.complaint row))) ∧
      (¬ IsFirst → (readPartition extended partition).1 = (readPartition rows partition).1) := by
  intro row extended IsFirst
  have hstripped : row.1.drop sequences.start.length = namedKey partition workspace name :=
    List.drop_left
  have hread (rows : Rows) : (readPartition rows partition).1 =
      ((sequences.scan rows (Key.partitionStart partition)).1.mapError EngineError.storage).bind
        ofRows := rfl
  rw [hread, hread]
  rcases Namespace.scan_insert_cases (α := StoredLast) hnew
    (storedStart_isPrefix_namedKey partition workspace name) value with
    ⟨hfirst, herror⟩ | ⟨hfirst, ⟨error, hbefore, herror⟩ | ⟨before, last, after, hbefore, hitems⟩⟩
  · refine ⟨fun _ ↦ ?_, fun hother ↦ absurd hfirst hother⟩
    rw [herror]
    rfl
  · refine ⟨fun hother ↦ absurd hother hfirst, fun _ ↦ ?_⟩
    rw [hbefore, herror]
  · refine ⟨fun hother ↦ absurd hother hfirst, fun _ ↦ ?_⟩
    rw [hbefore, hitems, hstripped]
    exact ofRows_insert (readRow_namedKey hworkspace hname · last) before after

variable {β σ : Type} [Backend β] [LawfulBackend β] [LogSource σ]

/-- A new row of an unknown sequence is left alone by what reads the partition and by what rebuilds
its counters, except for its value: if this is the first that is malformed, both fail. -/
theorem read_insert_unknown (store extended : β) {value : Octets}
    (hworkspace : Key.readWorkspace workspace = .ok number)
    (hname : ∀ kind : SequenceKind, name ≠ Octets.ofText kind.name)
    (hnew : (LawfulBackend.rows store)[
      sequences.storedKey (namedKey partition workspace name)]? = none)
    (hextended : LawfulBackend.rows extended = (LawfulBackend.rows store).insert
      (sequences.storedKey (namedKey partition workspace name)) value) (log : σ) :
    let row := (sequences.storedKey (namedKey partition workspace name), value)
    let IsFirst := sequences.IsFirstMalformed StoredLast (Key.partitionStart partition)
      (LawfulBackend.rows store) row
    (IsFirst →
        (readPartition extended partition).1 = .error (.storage (sequences.complaint row)) ∧
          (replay extended log partition).1 = .error (.storage (sequences.complaint row))) ∧
      (¬ IsFirst →
        (readPartition extended partition).1 = (readPartition store partition).1 ∧
          (replay extended log partition).1 = (replay store log partition).1) := by
  intro row IsFirst
  have hrows (store : β) : (readPartition store partition).1 =
      (readPartition (LawfulBackend.rows store) partition).1 := by
    obtain ⟨after, hread, -⟩ := readPartition_eq_rows store partition
    rw [hread]
  obtain ⟨hfirst, hother⟩ := readPartition_insert_unknown hworkspace hname hnew value
  rw [replay_fst, replay_fst, hrows extended, hrows store, hextended]
  refine ⟨fun h ↦ ⟨hfirst h, ?_⟩, fun h ↦ ⟨hother h, ?_⟩⟩
  · rw [hfirst h]
    rfl
  · rw [hother h]

/-- The key of a sequence that does not exist yet, in the first partition. -/
def futureKey : Octets :=
  namedKey ⟨1⟩ (Octets.ofText "00000000000000000010") (Octets.ofText "sys.FutureSeq")

/-- With a number in it as today, a row of this sequence is left alone. With a field that does not
exist yet, nothing can be read. -/
theorem futureRow_read :
    let key := sequences.storedKey futureKey
    let today : Rows := (∅ : Rows).insert key (Octets.ofText "\x7b\"last\":1\x7d")
    let tomorrow : Rows := (∅ : Rows).insert key (Octets.ofText "\x7b\"next\":1\x7d")
    let error := EngineError.storage
      (.malformedValue "00000000000000000001:00000000000000000010:sys.FutureSeq")
    (readPartition today ⟨1⟩).1 = .ok .empty ∧
      (readPartition tomorrow ⟨1⟩).1 = .error error ∧
      (replay today MemoryLog.empty ⟨1⟩).1 = .ok .empty ∧
      (replay tomorrow MemoryLog.empty ⟨1⟩).1 = .error error := by
  intro key today tomorrow error
  have hworkspace : Key.readWorkspace (Octets.ofText "00000000000000000010") = .ok ⟨10⟩ := by
    decide +kernel
  have hname (kind : SequenceKind) : Octets.ofText "sys.FutureSeq" ≠ Octets.ofText kind.name := by
    rcases kind with _ | _ | _ | _ <;> decide +kernel
  have hnew : (∅ : Rows)[key]? = none := Std.ExtTreeMap.getElem?_empty
  obtain ⟨-, htoday⟩ := read_insert_unknown (∅ : Rows) today hworkspace hname hnew rfl
    MemoryLog.empty
  obtain ⟨htomorrow, -⟩ := read_insert_unknown (∅ : Rows) tomorrow hworkspace hname hnew rfl
    MemoryLog.empty
  obtain ⟨hread, hreplay⟩ := htoday fun hfirst ↦ absurd hfirst.isMalformed (by decide +kernel)
  obtain ⟨hfailed, hlost⟩ := htomorrow ⟨by decide +kernel, fun other value hvalue ↦
    absurd (hvalue.symm.trans Std.ExtTreeMap.getElem?_empty) nofun⟩
  have hcomplaint : sequences.complaint (key, Octets.ofText "\x7b\"next\":1\x7d") =
      .malformedValue "00000000000000000001:00000000000000000010:sys.FutureSeq" := by
    decide +kernel
  have hempty := (stores_empty ⟨1⟩).readPartition_eq
  refine ⟨hread.trans (congrArg Prod.fst hempty), ?_, hreplay.trans ?_, ?_⟩
  · exact hfailed.trans (congrArg (Except.error ∘ EngineError.storage) hcomplaint)
  · rw [replay_fst]
    rfl
  · exact hlost.trans (congrArg (Except.error ∘ EngineError.storage) hcomplaint)

end Checkpoint

end LogSequencing
