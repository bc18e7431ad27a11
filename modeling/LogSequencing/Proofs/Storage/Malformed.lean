import LogSequencing.Proofs.Storage.Lawful

/-!
# Values that cannot be read

A scan of a namespace reads the values of its rows in the order of their keys and fails at the first
one that is malformed. So it fails exactly if there is one (`Namespace.scan_cases`), and its error
names the key of the first (`Namespace.mapM_decodeRow_cases`). A row that is put in between takes its
place in the order of the keys and leaves the other rows where they are (`Rows.exists_scan_insert`).
-/

set_option autoImplicit false
set_option relaxedAutoImplicit false

namespace LogSequencing

open Json

namespace Rows

/-- A row whose key is new stands behind the rows with lesser keys and before the others. -/
theorem exists_scan_insert {rows : Rows} {start key : Octets} (hnew : rows[key]? = none)
    (hstarts : start <+: key) (value : Octets) : ∃ before after,
      rows.scan start none = before ++ after ∧
      Rows.scan (rows.insert key value) start none = before ++ (key, value) :: after ∧
      (∀ row ∈ before, row.1 < key) ∧ ∀ row ∈ after, key < row.1 := by
  have hself : (key, value) ∈ Rows.scan (rows.insert key value) start none := by
    refine mem_scan_iff.mpr ⟨?_, hstarts⟩
    rw [getElem?_insert_eq_ite, if_pos rfl]
  obtain ⟨before, after, hscan⟩ := List.append_of_mem hself
  have hsorted := pairwise_scan (rows.insert key value) start
  rw [hscan] at hsorted
  obtain ⟨hbefore, hlater, hcross⟩ := List.pairwise_append.mp hsorted
  obtain ⟨hafter, hrest⟩ := List.pairwise_cons.mp hlater
  have hlesser (row : Row) (hrow : row ∈ before) : row.1 < key :=
    hcross row hrow (key, value) List.mem_cons_self
  have hothers : (before ++ after).Pairwise fun a b ↦ a.1 < b.1 :=
    List.pairwise_append.mpr ⟨hbefore, hrest, fun a ha b hb ↦
      hcross a ha b (List.mem_cons_of_mem _ hb)⟩
  refine ⟨before, after, ?_, hscan, hlesser, hafter⟩
  refine eq_of_mem_iff (pairwise_scan rows start) hothers fun row ↦ ?_
  have hother (hrow : row ∈ before ++ after) : row.1 ≠ key := by
    rintro rfl
    rcases List.mem_append.mp hrow with hrow | hrow
    · exact List.lt_irrefl _ (hlesser row hrow)
    · exact List.lt_irrefl _ (hafter row hrow)
  have hextended : row ∈ Rows.scan (rows.insert key value) start none ↔
      row = (key, value) ∨ row ∈ before ++ after := by
    rw [hscan]
    simp only [List.mem_append, List.mem_cons]
    tauto
  rw [mem_scan_iff, getElem?_insert_eq_ite] at hextended
  constructor
  · intro hrow
    obtain ⟨hvalue, hprefix⟩ := mem_scan_iff.mp hrow
    have hkey : row.1 ≠ key := by
      rintro rfl
      exact absurd (hnew.symm.trans hvalue) nofun
    refine (hextended.mp ⟨(if_neg hkey).trans hvalue, hprefix⟩).resolve_left ?_
    rintro rfl
    exact hkey rfl
  · intro hrow
    obtain ⟨hvalue, hprefix⟩ := hextended.mpr (Or.inr hrow)
    rw [if_neg (hother hrow)] at hvalue
    exact mem_scan_iff.mpr ⟨hvalue, hprefix⟩

end Rows

namespace Namespace

variable (α : Type) [Stored α]

/-- The value of a row is no JSON text of the expected form. -/
def IsMalformed (row : Row) : Prop := (Stored.decode? row.2 : Option α) = none

instance : DecidablePred (IsMalformed α) := fun row ↦
  inferInstanceAs (Decidable ((Stored.decode? row.2 : Option α) = none))

/-- Some value under keys that begin alike is malformed. -/
def HasMalformed (ns : Namespace) (start : Octets) (rows : Rows) : Prop :=
  ∃ key value, rows[key]? = some value ∧ ns.storedKey start <+: key ∧ IsMalformed α (key, value)

/-- The error that tells of a malformed row. -/
def complaint (ns : Namespace) (row : Row) : StorageError :=
  .malformedValue (Octets.toTextLossy (row.1.drop ns.start.length))

variable {α} {ns : Namespace} {row : Row}

theorem decodeRow_of_isMalformed (h : IsMalformed α row) :
    (ns.decodeRow row : Except StorageError (Octets × α)) = .error (ns.complaint row) := by
  have hvalue : (Stored.decode? row.2 : Option α) = none := h
  simp only [decodeRow, decode, hvalue]
  rfl

theorem exists_decodeRow (ns : Namespace) (h : ¬ IsMalformed α row) : ∃ value : α,
    ns.decodeRow row = (.ok (row.1.drop ns.start.length, value) : Except StorageError _) := by
  obtain ⟨value, hvalue⟩ := Option.ne_none_iff_exists'.mp h
  refine ⟨value, ?_⟩
  simp only [decodeRow, decode, hvalue]
  rfl

/-- The values are read one after the other, up to the first that is malformed. -/
theorem mapM_decodeRow_cases (ns : Namespace) (items : List Row) :
    (∃ values, (items.mapM ns.decodeRow : Except StorageError (List (Octets × α))) = .ok values ∧
        ∀ row ∈ items, ¬ IsMalformed α row) ∨
      ∃ before row after, items = before ++ row :: after ∧
        (∀ earlier ∈ before, ¬ IsMalformed α earlier) ∧ IsMalformed α row ∧
        (items.mapM ns.decodeRow : Except StorageError (List (Octets × α))) =
          .error (ns.complaint row) := by
  induction items with
  | nil => exact Or.inl ⟨[], rfl, by simp⟩
  | cons first items ih =>
    rw [List.mapM_cons]
    by_cases hfirst : IsMalformed α first
    · refine Or.inr ⟨[], first, items, rfl, by simp, hfirst, ?_⟩
      rw [decodeRow_of_isMalformed hfirst]
      rfl
    · obtain ⟨value, hvalue⟩ := exists_decodeRow ns hfirst
      rw [hvalue]
      rcases ih with ⟨values, hvalues, hread⟩ | ⟨before, row, after, rfl, hbefore, hrow, herror⟩
      · refine Or.inl ⟨(first.1.drop ns.start.length, value) :: values, ?_,
          List.forall_mem_cons.mpr ⟨hfirst, hread⟩⟩
        rw [hvalues]
        rfl
      · refine Or.inr ⟨first :: before, row, after, rfl,
          List.forall_mem_cons.mpr ⟨hfirst, hbefore⟩, hrow, ?_⟩
        rw [herror]
        rfl

variable {β : Type} [Backend β] [LawfulBackend β]

/-- A scan reads all values, or it fails and one of them is malformed. -/
theorem scan_cases (ns : Namespace) (store : β) (start : Octets) :
    (∃ values, (ns.scan (α := α) store start).1 = .ok values ∧
        ¬ ns.HasMalformed α start (LawfulBackend.rows store)) ∨
      ∃ key, (ns.scan (α := α) store start).1 = .error (.malformedValue key) ∧
        ns.HasMalformed α start (LawfulBackend.rows store) := by
  obtain ⟨after, hscan, -⟩ := ns.scan_eq_rows (α := α) store start
  rw [hscan]
  rcases mapM_decodeRow_cases (α := α) ns
    ((LawfulBackend.rows store).scan (ns.storedKey start) none) with
    ⟨values, hvalues, hread⟩ | ⟨before, row, later, hitems, -, hrow, herror⟩
  · refine Or.inl ⟨values, hvalues, ?_⟩
    rintro ⟨key, value, hvalue, hstarts, hmalformed⟩
    exact hread (key, value) (Rows.mem_scan_iff.mpr ⟨hvalue, hstarts⟩) hmalformed
  · refine Or.inr ⟨_, herror, row.1, row.2, ?_⟩
    have hmem : row ∈ (LawfulBackend.rows store).scan (ns.storedKey start) none :=
      hitems ▸ List.mem_append_right _ List.mem_cons_self
    obtain ⟨hvalue, hstarts⟩ := Rows.mem_scan_iff.mp hmem
    exact ⟨hvalue, hstarts, hrow⟩

end Namespace

end LogSequencing
