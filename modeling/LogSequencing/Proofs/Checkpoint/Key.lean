import LogSequencing.Checkpoint.View
import LogSequencing.Proofs.Json.Record

/-!
# Keys and values of checkpoint rows

The key of a sequence is read back as its workspace and its name (`readKey_sequenceKey`), so within a
partition different sequences have different keys (`storedKey_inj`). The keys of a partition begin
like those of no other (`Key.eq_of_partitionStart_isPrefix`) and stand in the order of their
workspaces (`Key.le_of_number_lt`). A stored number is read back as it was written.
-/

set_option autoImplicit false
set_option relaxedAutoImplicit false

namespace LogSequencing

open Json

namespace Key

variable {space : Space}

theorem toChars_number (n : Serial space) :
    Octets.toChars (number n) = Decimal.padded 20 n.val.toNat :=
  Octets.toChars_ofAscii fun _ ↦ Decimal.isDigit_of_mem_padded

/-- A number holds no colon. -/
theorem colon_notMem_number (n : Serial space) : (0x3a : UInt8) ∉ number n := by
  intro hcolon
  obtain ⟨c, hc, hoctet⟩ := List.mem_map.mp hcolon
  have hhigh := (Octets.digit_octet (Decimal.isDigit_of_mem_padded hc)).2.2
  rw [hoctet] at hhigh
  exact absurd hhigh (by decide)

theorem cut?_append {front : Octets} (hfront : (0x3a : UInt8) ∉ front) (rest : Octets) :
    cut? (front ++ 0x3a :: rest) = some (front, rest) := by
  have hfree : ∀ octet ∈ front, decide (octet ≠ 0x3a) = true := fun octet hoctet ↦
    decide_eq_true fun h ↦ hfront (h ▸ hoctet)
  rw [cut?, List.dropWhile_append_of_pos hfree, List.takeWhile_append_of_pos hfree]
  simp

theorem readWorkspace_number (workspace : WorkspaceId) :
    readWorkspace (number workspace) = .ok workspace := by
  rw [readWorkspace, toChars_number, Decimal.read_padded]
  rfl

/-! ### Order -/

/-- Twenty digits are enough for every number. -/
theorem length_padded (n : Serial space) : (Decimal.padded 20 n.val.toNat).length = 20 :=
  Decimal.length_padded (by decide) (Nat.lt_trans n.val.toNat_lt (by decide))

theorem le_of_number_lt {a b : Serial space} {after other : Octets}
    (h : number a ++ after < number b ++ other) : a ≤ b := by
  have hvalues := Octets.ofDigitChars_le_of_lt (fun _ ↦ Decimal.isDigit_of_mem_padded)
    (fun _ ↦ Decimal.isDigit_of_mem_padded) ((length_padded a).trans (length_padded b).symm) h
  rw [Decimal.ofDigitChars_padded, Decimal.ofDigitChars_padded] at hvalues
  exact UInt64.le_iff_toNat_le.mpr hvalues

theorem number_inj {a b : Serial space} (h : number a = number b) : a = b := by
  have hchars := congrArg (fun octets ↦ Decimal.read (Octets.toChars octets)) h
  simp only [toChars_number, Decimal.read_padded] at hchars
  exact congrArg Serial.mk (Except.ok.inj hchars)

/-- The keys of a partition begin like those of no other. -/
theorem eq_of_partitionStart_isPrefix {partition other : PartitionId} {rest : Octets}
    (h : partitionStart partition <+: partitionStart other ++ rest) : partition = other := by
  obtain ⟨after, h⟩ := h
  have hcut := congrArg cut? h
  simp only [partitionStart, List.append_assoc, List.singleton_append] at hcut
  rw [cut?_append (colon_notMem_number partition), cut?_append (colon_notMem_number other)] at hcut
  exact number_inj (congrArg Prod.fst (Option.some.inj hcut))

end Key

namespace Checkpoint

theorem readKey_sequenceKey (partition : PartitionId) (workspace : WorkspaceId)
    (kind : SequenceKind) :
    readKey (sequenceKey partition workspace kind) = .ok (workspace, Octets.ofText kind.name) := by
  have hkey : sequenceKey partition workspace kind =
      Key.number partition ++ 0x3a :: (Key.number workspace ++ 0x3a :: Octets.ofText kind.name) := by
    simp [sequenceKey, Key.partitionStart]
  have hpartition := Key.cut?_append (Key.colon_notMem_number partition)
    (Key.number workspace ++ 0x3a :: Octets.ofText kind.name)
  have hworkspace := Key.cut?_append (Key.colon_notMem_number workspace) (Octets.ofText kind.name)
  simp only [readKey, hkey, hpartition, Option.bind_some, hworkspace, Key.readWorkspace_number]

/-- Within a partition, different sequences have different keys. -/
theorem storedKey_inj {partition : PartitionId} {workspace other : WorkspaceId}
    {kind otherKind : SequenceKind}
    (h : sequences.storedKey (sequenceKey partition workspace kind) =
      sequences.storedKey (sequenceKey partition other otherKind)) :
    workspace = other ∧ kind = otherKind := by
  have hkey := congrArg readKey (List.append_cancel_left h)
  rw [readKey_sequenceKey, readKey_sequenceKey] at hkey
  obtain ⟨hworkspace, hname⟩ := Prod.mk.inj (Except.ok.inj hkey)
  have hkind := congrArg SequenceKind.ofName? hname
  rw [SequenceKind.ofName?_name, SequenceKind.ofName?_name] at hkind
  exact ⟨hworkspace, Option.some.inj hkind⟩

theorem partitionStart_isPrefix (partition : PartitionId) (workspace : WorkspaceId)
    (kind : SequenceKind) :
    sequences.storedKey (Key.partitionStart partition) <+:
      sequences.storedKey (sequenceKey partition workspace kind) := by
  rw [sequenceKey, List.append_assoc]
  exact (List.prefix_append_right_inj _).mpr (List.prefix_append _ _)

theorem areNames_storedLast : AreNames StoredLast.fieldNames := by decide +kernel

instance : LawfulStored StoredLast where
  ofJson?_toJson row := by
    have hfields : (Stored.toJson row).toFields? StoredLast.fieldNames = _ :=
      toFields?_ofMembers [("last", Stored.toJson row.last)] areNames_storedLast
    change StoredLast.ofJson? (Stored.toJson row) = some row
    unfold StoredLast.ofJson?
    simp [hfields, required?, LawfulStored.ofJson?_toJson]
  isPlain_toJson row := by
    refine isPlain_ofMembers areNames_storedLast.1 ?_
    simp [LawfulStored.isPlain_toJson]

end Checkpoint

end LogSequencing
