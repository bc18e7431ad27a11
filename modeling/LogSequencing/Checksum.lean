import LogSequencing.Text.Octets

/-!
# Checksum of a log entry

The CRC-32 of IEEE 802.3 in its reflected form: the register starts with all bits set, takes one
octet after the other, least significant bit first, and is inverted at the end.
-/

set_option autoImplicit false
set_option relaxedAutoImplicit false

namespace LogSequencing.Checksum

/-- The generator polynomial, lowest power in the highest bit. -/
def generator : UInt32 := 0xedb88320

/-- The register after one bit has left it. -/
def shift (register : UInt32) : UInt32 :=
  if register &&& 1 = 1 then (register >>> 1) ^^^ generator else register >>> 1

/-- The register after `count` bits have left it. -/
def shifts : (count : Nat) → UInt32 → UInt32
  | 0, register => register
  | count + 1, register => shifts count (shift register)

def update (register : UInt32) (octet : UInt8) : UInt32 :=
  shifts 8 (register ^^^ octet.toUInt32)

end LogSequencing.Checksum

namespace LogSequencing

/-- The CRC-32 of a sequence of octets. -/
def checksum (octets : Octets) : UInt32 :=
  octets.foldl Checksum.update 0xffffffff ^^^ 0xffffffff

end LogSequencing
