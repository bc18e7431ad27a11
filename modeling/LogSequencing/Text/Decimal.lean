/-!
# Decimal numbers

Numbers are written in decimal, plain (`digits`) or filled up with zeros to a fixed width
(`padded`), and read back with a leading plus sign and leading zeros allowed (`read`). Reading
goes from left to right and stops at the first fault, so of two faults the one further left is
reported.
-/

set_option autoImplicit false
set_option relaxedAutoImplicit false

namespace LogSequencing.Decimal

def digits (n : Nat) : List Char := Nat.toDigits 10 n

/-- The digits of `n` with zeros in front, up to `width` digits in all. -/
def padded (width n : Nat) : List Char :=
  List.replicate (width - (digits n).length) '0' ++ digits n

def text (n : Nat) : String := String.ofList (digits n)

/-- Why a text is not a 64-bit number. -/
inductive Malformed where
  | empty
  | invalidDigit
  | tooLarge
deriving DecidableEq, Repr

def Malformed.message : Malformed → String
  | empty => "cannot parse integer from empty string"
  | invalidDigit => "invalid digit found in string"
  | tooLarge => "number too large to fit in target type"

/-- The number that follows `value` when its digits go on with the given ones. -/
def readFrom (value : Nat) : List Char → Except Malformed Nat
  | [] => .ok value
  | c :: rest =>
    if ¬ c.isDigit then
      .error .invalidDigit
    else
      let next := 10 * value + (c.toNat - '0'.toNat)
      if next < UInt64.size then readFrom next rest else .error .tooLarge

def read : List Char → Except Malformed UInt64
  | [] => .error .empty
  | ['+'] => .error .invalidDigit
  | '+' :: rest => (readFrom 0 rest).map UInt64.ofNat
  | whole => (readFrom 0 whole).map UInt64.ofNat

end LogSequencing.Decimal
