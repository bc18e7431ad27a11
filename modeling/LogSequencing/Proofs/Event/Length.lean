import LogSequencing.Engine.Client
import LogSequencing.Proofs.Log.Entry
import Mathlib.Algebra.Group.Action.Defs
import Mathlib.Algebra.Order.BigOperators.Group.List
import Mathlib.Algebra.Order.Ring.Nat

/-!
# How long entries are

The entry of an event that creates records takes between 41 and 60 octets for each of them
(`Allocation.length_content_bounds`). So an event that does not fit into an entry creates more than a
million (`Allocation.lt_size_of_encode_eq_error`), and one that fits less than 1,700,000
(`Allocation.size_lt_of_encode_eq_ok`), provided that the length of its entry can be told, as it can up
to 70 million (`Allocation.isCounted_of_le`).
-/

set_option autoImplicit false
set_option relaxedAutoImplicit false

namespace LogSequencing

open Json

theorem Decimal.length_digits_pos (n : Nat) : 0 < (digits n).length :=
  List.length_pos_of_ne_nil (digits_ne_nil n)

theorem Decimal.length_digits_le (n : UInt64) : (digits n.toNat).length ≤ 20 :=
  (Nat.length_toDigits_le_iff (by decide) (by decide)).mpr (n.toNat_lt.trans (by decide))

/-- Each item takes its own length and a comma, the last one without it. -/
theorem Json.Value.length_printItems {items : List Value} (h : items ≠ []) :
    (printItems items).length + 1 = (items.map fun item ↦ item.print.length + 1).sum := by
  induction items with
  | nil => exact absurd rfl h
  | cons item items ih =>
    cases items with
    | nil => rfl
    | cons next rest =>
      have hrest := ih (List.cons_ne_nil next rest)
      rw [printItems, List.map_cons, List.sum_cons, ← hrest, List.length_append, List.length_cons]
      · omega
      · exact List.cons_ne_nil next rest

/-- A record that is created takes 39 octets and the digits of its number. -/
theorem Mutation.length_print (id : RecordId) {category : Category}
    (hcategory : category = .wDoc ∨ category = .cDoc) :
    (Stored.toJson (⟨id, category, true⟩ : Mutation)).print.length =
      39 + (Decimal.digits id.val.toNat).length := by
  have hid : ((Octets.ofText "id").flatMap escape).length = 2 := by decide +kernel
  have hname : ((Octets.ofText "category").flatMap escape).length = 8 := by decide +kernel
  have hnew : ((Octets.ofText "is_new").flatMap escape).length = 6 := by decide +kernel
  have htrue : (Octets.ofText "true").length = 4 := by decide +kernel
  have hcategoryName : ((Octets.ofText category.name).flatMap escape).length = 4 := by
    rcases hcategory with rfl | rfl <;> decide +kernel
  simp only [Stored.toJson, toJson, Value.ofMembers, Value.ofUInt64, Value.ofText, Value.print,
    Value.printMembers, Value.quoted, Octets.ofAscii, List.map_cons, List.map_nil, List.length_map,
    List.length_append, List.length_cons, List.length_nil, hid, hname, hnew, htrue, hcategoryName]
  omega

namespace Allocation

variable (allocation : Allocation) (workspace : WorkspaceId) (time : Instant)

/-- The number of records that the event creates. -/
def size : Nat := allocation.ordinaryIds.length + allocation.compactingIds.length

theorem length_print_of_mem {m : Mutation} (h : m ∈ (allocation.toEvent workspace time).mutations) :
    40 ≤ (Stored.toJson m).print.length ∧ (Stored.toJson m).print.length ≤ 59 := by
  have hcreated : ∃ id category, (category = .wDoc ∨ category = .cDoc) ∧
      m = ⟨id, category, true⟩ := by
    rcases List.mem_append.mp h with hordinary | hcompacting
    · obtain ⟨id, -, rfl⟩ := List.mem_map.mp hordinary
      exact ⟨id, .wDoc, Or.inl rfl, rfl⟩
    · obtain ⟨id, -, rfl⟩ := List.mem_map.mp hcompacting
      exact ⟨id, .cDoc, Or.inr rfl, rfl⟩
  obtain ⟨id, category, hcategory, rfl⟩ := hcreated
  have hpos := Decimal.length_digits_pos id.val.toNat
  have hle := Decimal.length_digits_le id.val
  rw [Mutation.length_print id hcategory]
  omega

theorem length_content :
    (Entry.content (allocation.toEvent workspace time)).length =
      68 + (Value.printItems ((allocation.toEvent workspace time).mutations.map
        Stored.toJson)).length := by
  have hmutations : ((Octets.ofText "cuds").flatMap escape).length = 4 := by decide +kernel
  have harguments : ((Octets.ofText "arg_objects").flatMap escape).length = 11 := by
    decide +kernel
  have hbody : Entry.body (allocation.toEvent workspace time) = (Value.ofMembers [
      ("cuds", .array ((allocation.toEvent workspace time).mutations.map Stored.toJson)),
      ("arg_objects", .array [])]).print := rfl
  rw [Entry.length_content, hbody]
  simp only [Value.ofMembers, Value.print, Value.printMembers, Value.printItems,
    Value.quoted, List.map_cons, List.map_nil, List.length_append, List.length_cons,
    List.length_nil, hmutations, harguments]
  omega

/-- A record takes between 41 and 60 octets, one of them for a comma. -/
theorem length_content_bounds :
    41 * allocation.size ≤ (Entry.content (allocation.toEvent workspace time)).length ∧
      (Entry.content (allocation.toEvent workspace time)).length ≤ 60 * allocation.size + 68 := by
  let items := (allocation.toEvent workspace time).mutations.map Stored.toJson
  let lengths := items.map fun item ↦ item.print.length + 1
  have hlength : lengths.length = allocation.size := by
    simp [lengths, items, toEvent, size]
  have hbounds : ∀ length ∈ lengths, 41 ≤ length ∧ length ≤ 60 := by
    intro length hmem
    obtain ⟨item, hitem, rfl⟩ := List.mem_map.mp hmem
    obtain ⟨m, hm, rfl⟩ := List.mem_map.mp hitem
    have hprint := allocation.length_print_of_mem workspace time hm
    omega
  have hlow := List.card_nsmul_le_sum lengths 41 fun length hmem ↦ (hbounds length hmem).1
  have hhigh := List.sum_le_card_nsmul lengths 60 fun length hmem ↦ (hbounds length hmem).2
  rw [hlength, smul_eq_mul] at hlow hhigh
  rw [length_content]
  change 41 * allocation.size ≤ 68 + (Value.printItems items).length ∧
    68 + (Value.printItems items).length ≤ 60 * allocation.size + 68
  by_cases hitems : items = []
  · have hnone : allocation.size = 0 := by rw [← hlength, List.length_map, hitems, List.length_nil]
    have hprinted : (Value.printItems items).length = 0 := by rw [hitems]; rfl
    omega
  · have hprinted : (Value.printItems items).length + 1 = lengths.sum := Value.length_printItems hitems
    omega

variable {allocation workspace time}

/-- Up to 70 million records, the length of the entry can be told. -/
theorem isCounted_of_le (h : allocation.size ≤ 70000000) :
    (allocation.toEvent workspace time).IsCounted := by
  have hlength := (allocation.length_content_bounds workspace time).2
  refine Event.isCounted_of_lt (Nat.lt_of_le_of_lt hlength ?_)
  have hsize : UInt32.size = 4294967296 := rfl
  omega

/-- An event that does not fit into an entry creates more than a million records. -/
theorem lt_size_of_encode_eq_error {error : LogError}
    (h : Entry.encode (allocation.toEvent workspace time) = .error error) :
    1000000 < allocation.size := by
  by_contra hsmall
  have hlength := (allocation.length_content_bounds workspace time).2
  have hcounted : Entry.length (allocation.toEvent workspace time) ≤ Entry.maxLength := by
    refine (Nat.mod_le ..).trans (hlength.trans ?_)
    have hmax : Entry.maxLength = 67108864 := rfl
    omega
  rw [Entry.encode, if_neg (Nat.not_lt.mpr hcounted)] at h
  cases h

/-- An event that fits into an entry creates less than 1,700,000 records. -/
theorem size_lt_of_encode_eq_ok {entry : Octets}
    (hcounted : (allocation.toEvent workspace time).IsCounted)
    (h : Entry.encode (allocation.toEvent workspace time) = .ok entry) :
    allocation.size < 1700000 := by
  have hfits : Entry.length (allocation.toEvent workspace time) ≤ Entry.maxLength := by
    by_contra hlarge
    rw [Entry.encode, if_pos (Nat.lt_of_not_le hlarge)] at h
    cases h
  rw [hcounted hfits] at hfits
  have hlow := (allocation.length_content_bounds workspace time).1
  have hmax : Entry.maxLength = 67108864 := rfl
  omega

end Allocation

end LogSequencing
