import LogSequencing.Log.Segment
import LogSequencing.Proofs.Text.Decimal

/-!
# Names of segments

The name that a segment is given is read back as its start offset, so different segments have
different names.
-/

set_option autoImplicit false
set_option relaxedAutoImplicit false

namespace LogSequencing.Segment

theorem ofFileName?_fileName (start : Offset) : ofFileName? (fileName start) = some start := by
  have hname : (fileName start).toList =
      nameStart ++ (Decimal.padded 16 start.val.toNat ++ nameEnd) := by
    rw [fileName, String.toList_ofList, List.append_assoc]
  have hstart : nameStart.isPrefixOf (fileName start).toList = true := by
    rw [hname, List.isPrefixOf_iff_prefix]
    exact List.prefix_append _ _
  have hrest : (fileName start).toList.drop nameStart.length =
      Decimal.padded 16 start.val.toNat ++ nameEnd := by
    rw [hname, List.drop_left]
  have hend : nameEnd.isSuffixOf (Decimal.padded 16 start.val.toNat ++ nameEnd) = true := by
    rw [List.isSuffixOf_iff_suffix]
    exact List.suffix_append _ _
  have hnumber : (Decimal.padded 16 start.val.toNat ++ nameEnd).take
      ((Decimal.padded 16 start.val.toNat ++ nameEnd).length - nameEnd.length) =
        Decimal.padded 16 start.val.toNat := by
    rw [List.length_append, Nat.add_sub_cancel, List.take_left]
  dsimp only [ofFileName?]
  rw [hstart, hrest, hend, hnumber, Decimal.read_padded]
  rfl

theorem fileName_inj {start other : Offset} (h : fileName start = fileName other) :
    start = other := by
  have hback := congrArg ofFileName? h
  rw [ofFileName?_fileName, ofFileName?_fileName] at hback
  exact Option.some.inj hback

end LogSequencing.Segment
