import LogSequencing.Proofs.Json.Record
import LogSequencing.Proofs.Storage.Scan
import LogSequencing.Storage.Namespace
import Mathlib.Data.Set.Image

/-!
# Ranges of keys

Rows of one kind, say the points of a partition, have keys in one namespace that all begin alike.
`KeyRange` names such keys by what they stand for, and `Keeps range rows content` says that the rows
whose keys begin so are those of `content` and no others. Rows written into the range change
`content` as a map (`Keeps.insertAll`), rows written elsewhere do not change it
(`Keeps.insertAll_elsewhere`), and a scan of the range finds `content` in the order of the keys
(`Keeps.scan`).
-/

set_option autoImplicit false
set_option relaxedAutoImplicit false

namespace LogSequencing

open Json

/-- The keys of one kind of rows in a namespace. They begin alike, and each names another row. -/
structure KeyRange (ι : Type) where
  ns : Namespace
  start : Octets
  key : ι → Octets
  start_isPrefix : ∀ i, start <+: key i
  key_injective : Function.Injective key

theorem Octets.append_lt_append_iff {front first second : Octets} :
    front ++ first < front ++ second ↔ first < second := by
  induction front with
  | nil => exact Iff.rfl
  | cons octet front ih =>
    rw [List.cons_append, List.cons_append, List.cons_lt_cons_iff, ih]
    simp

namespace KeyRange

/-! ### The last of several values -/

variable {ι α : Type}

/-- Of several values the last one counts. -/
theorem lookup_reverse_cons [BEq ι] [LawfulBEq ι] (item : ι × α) (items : List (ι × α))
    (content : ι → Option α) (i : ι) :
    ((item :: items).reverse.lookup i).or (content i) =
      (items.reverse.lookup i).or (if i == item.1 then some item.2 else content i) := by
  obtain ⟨j, a⟩ := item
  rw [List.reverse_cons, List.lookup_append, Option.or_assoc]
  refine congrArg _ ?_
  by_cases hsame : i = j
  · subst hsame
    rw [if_pos (beq_self_eq_true _), List.lookup_cons_self]
    rfl
  · rw [if_neg (by simpa using hsame), List.lookup_cons, beq_false_of_ne hsame]
    rfl

/-- Items that are all there is are found under their names. -/
theorem lookup_reverse_of_mem_iff [BEq ι] [LawfulBEq ι] {items : List (ι × α)} {content : ι → Option α}
    (hmem : ∀ item, item ∈ items ↔ content item.1 = some item.2) (i : ι) :
    items.reverse.lookup i = content i := by
  cases hlookup : items.reverse.lookup i with
  | none =>
    cases hcontent : content i with
    | none => rfl
    | some a =>
      have hitem := List.mem_reverse.mpr ((hmem (i, a)).mpr hcontent)
      exact absurd (List.lookup_eq_none_iff.mp hlookup (i, a) hitem) (by simp)
  | some a =>
    obtain ⟨before, after, hitems, -⟩ := List.lookup_eq_some_iff.mp hlookup
    have hitem : (i, a) ∈ items.reverse := by
      rw [hitems]
      exact List.mem_append_right _ List.mem_cons_self
    exact ((hmem (i, a)).mp (List.mem_reverse.mp hitem)).symm

/-! ### Rows -/

variable [Stored α]

/-- What the keys of the range begin with in the store. -/
def storedStart (range : KeyRange ι) : Octets := range.ns.storedKey range.start

def storedKey (range : KeyRange ι) (i : ι) : Octets := range.ns.storedKey (range.key i)

/-- A row of the range as it stands in the store. -/
def row (range : KeyRange ι) (item : ι × α) : Row := (range.storedKey item.1, Stored.encode item.2)

/-- The rows of a range are what `content` tells. -/
structure Keeps (range : KeyRange ι) (rows : Rows) (content : ι → Option α) : Prop where
  written : ∀ key value, rows[key]? = some value → range.storedStart <+: key →
    ∃ item : ι × α, (key, value) = range.row item
  value : ∀ i, rows[range.storedKey i]? = (content i).map Stored.encode

variable {range : KeyRange ι} {rows : Rows} {content : ι → Option α}

theorem storedStart_isPrefix (range : KeyRange ι) (i : ι) :
    range.storedStart <+: range.storedKey i :=
  (List.prefix_append_right_inj _).mpr (range.start_isPrefix i)

theorem storedKey_inj {i j : ι} (h : range.storedKey i = range.storedKey j) : i = j :=
  range.key_injective (List.append_cancel_left h)

theorem keeps_nothing (hfree : ∀ key, range.storedStart <+: key → rows[key]? = none) :
    range.Keeps rows fun _ ↦ (none : Option α) where
  written key value hvalue hstarts := by
    rw [hfree key hstarts] at hvalue
    exact absurd hvalue (by simp)
  value i := hfree _ (range.storedStart_isPrefix i)

/-! ### Writing -/

theorem Keeps.insert [BEq ι] [LawfulBEq ι] (h : range.Keeps rows content) (item : ι × α) :
    range.Keeps (rows.insert (range.row item).1 (range.row item).2)
      fun i ↦ if i == item.1 then some item.2 else content i := by
  refine ⟨fun key value hvalue hstarts ↦ ?_, fun i ↦ ?_⟩
  · rw [getElem?_insert_eq_ite] at hvalue
    by_cases hkey : key = (range.row item).1
    · rw [if_pos hkey] at hvalue
      exact ⟨item, Prod.ext hkey (Option.some.inj hvalue).symm⟩
    · rw [if_neg hkey] at hvalue
      exact h.written key value hvalue hstarts
  · rw [getElem?_insert_eq_ite]
    by_cases hsame : i = item.1
    · subst hsame
      have hkey : range.storedKey item.1 = (range.row item).1 := rfl
      rw [if_pos hkey, if_pos (beq_self_eq_true _)]
      rfl
    · have hkey : ¬ range.storedKey i = (range.row item).1 := fun hkey ↦ hsame (storedKey_inj hkey)
      rw [if_neg hkey, if_neg (by simpa using hsame)]
      exact h.value i

/-- Rows written into the range: of several under one key the last one counts. -/
theorem Keeps.insertAll [BEq ι] [LawfulBEq ι] (h : range.Keeps rows content) (items : List (ι × α)) :
    range.Keeps (rows.insertAll (items.map range.row))
      fun i ↦ (items.reverse.lookup i).or (content i) := by
  induction items generalizing rows content with
  | nil => exact h
  | cons item items ih =>
    rw [funext (lookup_reverse_cons item items content)]
    exact ih (h.insert item)

theorem Keeps.insertAll_elsewhere (h : range.Keeps rows content) {batch : List Row}
    (helsewhere : ∀ row ∈ batch, ¬ range.storedStart <+: row.1) :
    range.Keeps (rows.insertAll batch) content := by
  have hsame : ∀ key, range.storedStart <+: key → (rows.insertAll batch)[key]? = rows[key]? :=
    fun key hstarts ↦ Rows.getElem?_insertAll_of_ne fun row hrow hkey ↦
      helsewhere row hrow (hkey ▸ hstarts)
  refine ⟨fun key value hvalue hstarts ↦ ?_, fun i ↦ ?_⟩
  · rw [hsame key hstarts] at hvalue
    exact h.written key value hvalue hstarts
  · rw [hsame _ (range.storedStart_isPrefix i)]
    exact h.value i

/-! ### Reading -/

theorem Keeps.mem_scan_iff [LawfulStored α] (h : range.Keeps rows content) {item : ι × α} :
    range.row item ∈ rows.scan range.storedStart none ↔ content item.1 = some item.2 := by
  have hitem : range.row item ∈ rows.scan range.storedStart none ↔
      (content item.1).map Stored.encode = some (Stored.encode item.2) := by
    refine Rows.mem_scan_iff.trans ?_
    rw [h.value item.1]
    exact and_iff_left (range.storedStart_isPrefix item.1)
  refine hitem.trans ⟨fun hvalue ↦ ?_, fun hvalue ↦ by rw [hvalue]; rfl⟩
  obtain ⟨a, ha, hencode⟩ := Option.map_eq_some_iff.mp hvalue
  rw [ha, Stored.encode_injective hencode]

theorem mapM_decodeRow_row [LawfulStored α] (items : List (ι × α)) :
    (items.map range.row).mapM range.ns.decodeRow =
      (.ok (items.map fun item ↦ (range.key item.1, item.2)) : Except StorageError _) := by
  have hrows : items.map range.row =
      (items.map fun item ↦ (range.key item.1, item.2)).map range.ns.encodeRow := by
    rw [List.map_map]
    rfl
  rw [hrows, Namespace.mapM_decodeRow]

/-- A scan of the range finds what the range keeps, once each and in the order of the keys. -/
theorem Keeps.scan [LawfulStored α] (h : range.Keeps rows content) :
    ∃ items : List (ι × α),
      range.ns.scan rows range.start =
        (.ok (items.map fun item ↦ (range.key item.1, item.2)), rows) ∧
      items.Pairwise (fun a b ↦ range.key a.1 < range.key b.1) ∧
      ∀ item, item ∈ items ↔ content item.1 = some item.2 := by
  have himage : rows.scan range.storedStart none ∈ Set.range (List.map (range.row (α := α))) := by
    rw [Set.range_list_map]
    intro found hfound
    obtain ⟨hvalue, hstarts⟩ := Rows.mem_scan_iff.mp hfound
    obtain ⟨item, hitem⟩ := h.written found.1 found.2 hvalue hstarts
    exact ⟨item, hitem.symm⟩
  obtain ⟨items, hitems⟩ := himage
  have hinjective : Function.Injective (range.row (α := α)) := by
    intro a b hrow
    obtain ⟨hkey, hvalue⟩ := Prod.mk.inj hrow
    exact Prod.ext (storedKey_inj hkey) (Stored.encode_injective hvalue)
  refine ⟨items, ?_, ?_, fun item ↦ ?_⟩
  · change ((Except.ok (rows.scan range.storedStart none)).bind _, rows) = _
    have hdecoded : (items.map range.row).mapM range.ns.decodeRow =
        (.ok (items.map fun item ↦ (range.key item.1, item.2)) : Except StorageError _) :=
      mapM_decodeRow_row items
    rw [← hitems]
    exact congrArg (·, rows) hdecoded
  · have hsorted : (rows.scan range.storedStart none).Pairwise fun a b ↦ a.1 < b.1 := by
      rw [Rows.scan_eq_filter]
      exact (Rows.pairwise_toList rows).filter _
    rw [← hitems, List.pairwise_map] at hsorted
    exact hsorted.imp Octets.append_lt_append_iff.mp
  · rw [← h.mem_scan_iff, ← hitems]
    exact (List.mem_map_of_injective hinjective).symm

end KeyRange

end LogSequencing
