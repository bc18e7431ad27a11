import LogSequencing.Proofs.Json.Record
import LogSequencing.Proofs.Maps
import LogSequencing.Storage.Namespace
import LogSequencing.Storage.Rows
import Mathlib.Data.List.Sort

/-!
# Scans of rows

Rows stand in the order of their keys, so the keys that begin alike stand together, from the first
key on that is not less than what they begin with. A scan, which reads on from there until a key
begins otherwise, therefore finds exactly the rows whose keys begin as asked (`scan_eq_filter`). Rows
of a namespace are read back from it as they were put in (`mapM_decodeRow`).
-/

set_option autoImplicit false
set_option relaxedAutoImplicit false

namespace LogSequencing

namespace Octets

theorem compare_eq_lt_iff (first second : Octets) : compare first second = .lt ↔ first < second := by
  induction first generalizing second with
  | nil => cases second <;> simp
  | cons a first ih =>
    cases second with
    | nil => simp
    | cons b second =>
      rw [List.compare_cons_cons, Ordering.then_eq_lt, List.cons_lt_cons_iff, ih,
        Std.compare_eq_lt, Std.LawfulEqOrd.compare_eq_iff_eq]

theorem not_lt_of_isPrefix {start key : Octets} (h : start <+: key) : ¬ key < start := by
  obtain ⟨rest, rfl⟩ := h
  induction start with
  | nil => simp
  | cons a start ih =>
    rw [List.cons_append, List.cons_lt_cons_iff]
    rintro (hlt | ⟨-, hlt⟩)
    · exact absurd hlt (by simp)
    · exact ih hlt

/-- The keys between one that is not less than a beginning and one that has it have it too. -/
theorem prefix_of_lt {start key later : Octets} (hkey : ¬ key < start) (hlt : key < later)
    (hlater : start <+: later) : start <+: key := by
  induction start generalizing key later with
  | nil => exact List.nil_prefix
  | cons a start ih =>
    obtain ⟨rest, rfl⟩ := hlater
    cases key with
    | nil => exact absurd (List.nil_lt_cons a start) hkey
    | cons b key =>
      rw [List.cons_append] at hlt
      rw [List.cons_lt_cons_iff] at hkey hlt
      have hhead : b = a ∧ key < start ++ rest := by
        rcases hlt with hless | hsame
        · exact absurd (Or.inl hless) hkey
        · exact hsame
      obtain ⟨rfl, htail⟩ := hhead
      have hstart : ¬ key < start := fun hless ↦ hkey (Or.inr ⟨rfl, hless⟩)
      exact List.cons_prefix_cons.mpr ⟨rfl, ih hstart htail (List.prefix_append _ _)⟩

end Octets

namespace Rows

/-- Rows in the order of their keys are told by which rows they are. -/
theorem eq_of_mem_iff {items others : List Row} (hitems : items.Pairwise fun a b ↦ a.1 < b.1)
    (hothers : others.Pairwise fun a b ↦ a.1 < b.1) (hmem : ∀ row, row ∈ items ↔ row ∈ others) :
    items = others := by
  have : Std.Irrefl fun a b : Row ↦ a.1 < b.1 := ⟨fun row ↦ List.lt_irrefl row.1⟩
  have : Std.Antisymm fun a b : Row ↦ a.1 < b.1 :=
    ⟨fun a b hlt hgt ↦ absurd (List.lt_trans hlt hgt) (List.lt_irrefl a.1)⟩
  exact hitems.eq_of_mem_iff hothers hmem

theorem takeWhile_eq_filter {start : Octets} {items : List Row}
    (hsorted : items.Pairwise fun a b ↦ a.1 < b.1) (hstart : ∀ row ∈ items, ¬ row.1 < start) :
    items.takeWhile (fun row ↦ start.isPrefixOf row.1) =
      items.filter fun row ↦ start.isPrefixOf row.1 := by
  induction items with
  | nil => rfl
  | cons row items ih =>
    rw [List.pairwise_cons] at hsorted
    have hrest := ih hsorted.2 fun other hother ↦ hstart other (List.mem_cons_of_mem row hother)
    by_cases hstarts : start.isPrefixOf row.1
    · simp only [List.takeWhile_cons, List.filter_cons, hstarts, if_true, hrest]
    · rw [List.takeWhile_cons, List.filter_cons, if_neg hstarts, if_neg hstarts]
      refine (List.filter_eq_nil_iff.mpr fun other hother hlater ↦ hstarts ?_).symm
      rw [List.isPrefixOf_iff_prefix] at hlater ⊢
      exact Octets.prefix_of_lt (hstart row List.mem_cons_self) (hsorted.1 other hother) hlater

theorem scan_sorted {start : Octets} {items : List Row}
    (hsorted : items.Pairwise fun a b ↦ a.1 < b.1) :
    (items.dropWhile fun row ↦ decide (row.1 < start)).takeWhile
        (fun row ↦ start.isPrefixOf row.1) =
      items.filter fun row ↦ start.isPrefixOf row.1 := by
  induction items with
  | nil => rfl
  | cons row items ih =>
    have hrest := List.pairwise_cons.mp hsorted
    by_cases hless : row.1 < start
    · have hstarts : ¬ start.isPrefixOf row.1 = true := fun hstarts ↦
        Octets.not_lt_of_isPrefix (List.isPrefixOf_iff_prefix.mp hstarts) hless
      rw [List.dropWhile_cons_of_pos (by simpa using hless), List.filter_cons, if_neg hstarts]
      exact ih hrest.2
    · rw [List.dropWhile_cons_of_neg (by simpa using hless)]
      refine takeWhile_eq_filter hsorted fun other hother ↦ ?_
      rcases List.mem_cons.mp hother with rfl | hother
      · exact hless
      · exact fun hlt ↦ hless (List.lt_trans (hrest.1 other hother) hlt)

theorem getElem?_insertAll_of_ne {rows : Rows} {batch : List Row} {key : Octets}
    (hother : ∀ row ∈ batch, row.1 ≠ key) : (rows.insertAll batch)[key]? = rows[key]? := by
  induction batch generalizing rows with
  | nil => rfl
  | cons row batch ih =>
    refine (ih fun other hmem ↦ hother other (List.mem_cons_of_mem row hmem)).trans ?_
    exact (getElem?_insert_eq_ite ..).trans (if_neg (hother row List.mem_cons_self).symm)

/-- A row is found under its key unless another row of the batch has the same one. -/
theorem getElem?_insertAll_of_mem {rows : Rows} {batch : List Row} {row : Row} (hrow : row ∈ batch)
    (hunique : ∀ other ∈ batch, other.1 = row.1 → other = row) :
    (rows.insertAll batch)[row.1]? = some row.2 := by
  induction batch generalizing rows with
  | nil => contradiction
  | cons first batch ih =>
    have hrest := fun other hother ↦ hunique other (List.mem_cons_of_mem first hother)
    by_cases hmem : row ∈ batch
    · exact ih hmem hrest
    · obtain rfl : row = first := (List.mem_cons.mp hrow).resolve_right hmem
      have hkept : (Rows.insertAll (rows.insert row.1 row.2) batch)[row.1]? =
          (rows.insert row.1 row.2)[row.1]? :=
        getElem?_insertAll_of_ne fun other hother hkey ↦ hmem (hrest other hother hkey ▸ hother)
      exact hkept.trans Std.ExtTreeMap.getElem?_insert_self

theorem pairwise_toList (rows : Rows) : rows.toList.Pairwise fun a b ↦ a.1 < b.1 :=
  rows.ordered_keys_toList.imp fun h ↦ (Octets.compare_eq_lt_iff _ _).mp h

theorem scan_eq_filter (rows : Rows) (start : Octets) :
    rows.scan start none = rows.toList.filter fun row ↦ start.isPrefixOf row.1 :=
  scan_sorted (pairwise_toList rows)

theorem pairwise_scan (rows : Rows) (start : Octets) :
    (rows.scan start none).Pairwise fun a b ↦ a.1 < b.1 := by
  rw [scan_eq_filter]
  exact (pairwise_toList rows).filter _

theorem mem_scan_iff {rows : Rows} {start key value : Octets} :
    (key, value) ∈ rows.scan start none ↔ rows[key]? = some value ∧ start <+: key := by
  rw [scan_eq_filter, List.mem_filter, Std.ExtTreeMap.mem_toList_iff_getElem?_eq_some,
    List.isPrefixOf_iff_prefix]

end Rows

namespace Namespace

variable {α : Type} [Json.Stored α] [Json.LawfulStored α]

theorem decodeRow_encodeRow (ns : Namespace) (row : Octets × α) :
    ns.decodeRow (ns.encodeRow row) = .ok row := by
  have hkey : (ns.storedKey row.1).drop ns.start.length = row.1 := List.drop_left
  simp only [decodeRow, encodeRow, decode, hkey, Json.Stored.decode?_encode]
  rfl

theorem mapM_decodeRow (ns : Namespace) (rows : List (Octets × α)) :
    (rows.map ns.encodeRow).mapM ns.decodeRow = (.ok rows : Except StorageError _) := by
  induction rows with
  | nil => rfl
  | cons row rows ih =>
    rw [List.map_cons, List.mapM_cons, decodeRow_encodeRow, ih]
    rfl

end Namespace

end LogSequencing
