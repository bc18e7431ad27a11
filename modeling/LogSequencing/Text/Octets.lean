/-!
# Octets

Everything stored is a sequence of octets. Text is stored as UTF-8, fixed-width numbers with the
least significant octet first. Reading text that may not be valid UTF-8 comes in two forms: a
strict one (`Octets.toText?`) and one that puts U+FFFD where a maximal part of a character breaks
off (`Octets.toTextLossy`).
-/

set_option autoImplicit false
set_option relaxedAutoImplicit false

namespace LogSequencing

abbrev Octets := List UInt8

namespace Octets

def ofText (text : String) : Octets := text.toUTF8.data.toList

/-- The octets of characters that are all ASCII. -/
def ofAscii (chars : List Char) : Octets := chars.map Char.toUInt8

/-- Each octet as the character of the same number. -/
def toChars (octets : Octets) : List Char := octets.map Char.ofUInt8

def toText? (octets : Octets) : Option String := String.fromUTF8? ⟨octets.toArray⟩

/-! ### Fixed-width numbers -/

/-- The low `width` octets of `n`, least significant first. -/
def ofNatLE : (width n : Nat) → Octets
  | 0, _ => []
  | width + 1, n => UInt8.ofNat n :: ofNatLE width (n / 256)

def toNatLE : Octets → Nat
  | [] => 0
  | octet :: rest => octet.toNat + 256 * toNatLE rest

/-! ### Text with faults -/

/-- How many octets follow the first one of a character, and which values the second may have;
`none` for an octet that begins no character. -/
def continuation? (lead : UInt8) : Option (Nat × UInt8 × UInt8) :=
  if lead < 0x80 then some (0, 0x80, 0xbf)
  else if 0xc2 ≤ lead && lead ≤ 0xdf then some (1, 0x80, 0xbf)
  else if lead = 0xe0 then some (2, 0xa0, 0xbf)
  else if lead = 0xed then some (2, 0x80, 0x9f)
  else if 0xe1 ≤ lead && lead ≤ 0xef then some (2, 0x80, 0xbf)
  else if lead = 0xf0 then some (3, 0x90, 0xbf)
  else if 0xf1 ≤ lead && lead ≤ 0xf3 then some (3, 0x80, 0xbf)
  else if lead = 0xf4 then some (3, 0x80, 0x8f)
  else none

/-- The octets of `rest` that continue a character of which `missing` octets are still to come. -/
def continuationOf (missing : Nat) (low high : UInt8) (rest : Octets) : Octets :=
  match missing, rest with
  | 0, _ => []
  | _, [] => []
  | missing + 1, octet :: rest =>
    if low ≤ octet && octet ≤ high then
      octet :: continuationOf missing 0x80 0xbf rest
    else
      []

/-- The number of the character that `lead` and its continuation spell. -/
def codePoint (lead : UInt8) (continuation : Octets) : Nat :=
  let start :=
    match continuation.length with
    | 0 => lead.toNat
    | 1 => lead.toNat % 0x20
    | 2 => lead.toNat % 0x10
    | _ => lead.toNat % 0x08
  continuation.foldl (fun value octet ↦ value * 64 + octet.toNat % 64) start

/-- The first character and how many octets it takes after its first one. A character that breaks
off, or an octet that begins none, reads as U+FFFD. -/
def firstChar (lead : UInt8) (rest : Octets) : Char × Nat :=
  match continuation? lead with
  | none => ('\ufffd', 0)
  | some (missing, low, high) =>
    let continuation := continuationOf missing low high rest
    if continuation.length = missing then
      (Char.ofNat (codePoint lead continuation), missing)
    else
      ('\ufffd', continuation.length)

/-- The characters of a text with faults; `skip` octets belong to a character already read. -/
def charsLossy (skip : Nat) : Octets → List Char
  | [] => []
  | octet :: rest =>
    match skip with
    | skip + 1 => charsLossy skip rest
    | 0 =>
      let (char, taken) := firstChar octet rest
      char :: charsLossy taken rest

def toTextLossy (octets : Octets) : String := String.ofList (charsLossy 0 octets)

end Octets

end LogSequencing
