import LogSequencing.Text.Decimal
import LogSequencing.Text.Octets

/-!
# JSON values

A value keeps its numbers and strings as they are spelled. What a spelling means is settled only
where a number or a text is wanted (`Value.toUInt64?`, `Value.toText?`), so values that nobody
reads may hold numbers of any size and strings that are no text.

`Value.print` writes a value without blanks, `Value.printIndented` one member or item a line.
-/

set_option autoImplicit false
set_option relaxedAutoImplicit false

namespace LogSequencing.Json

inductive Value where
  | null
  | bool (value : Bool)
  | number (spelling : List Char)
  /-- The octets between the quotes, escapes included. -/
  | string (spelling : Octets)
  | array (items : List Value)
  | object (members : List (Octets × Value))
deriving Repr, Inhabited

/-! ### Strings -/

def hexDigit? (octet : UInt8) : Option Nat :=
  if 0x30 ≤ octet && octet ≤ 0x39 then some (octet.toNat - 0x30)
  else if 0x41 ≤ octet && octet ≤ 0x46 then some (octet.toNat - 0x41 + 10)
  else if 0x61 ≤ octet && octet ≤ 0x66 then some (octet.toNat - 0x61 + 10)
  else none

/-- The number that four hexadecimal digits spell. -/
def hexQuad? (a b c d : UInt8) : Option Nat := do
  return ((← hexDigit? a) * 16 + (← hexDigit? b)) * 256 + (← hexDigit? c) * 16 + (← hexDigit? d)

/-- What a backslash and one more octet stand for, apart from `\u`. -/
def escaped? (octet : UInt8) : Option UInt8 :=
  match Char.ofUInt8 octet with
  | '"' => some 0x22
  | '\\' => some 0x5c
  | '/' => some 0x2f
  | 'b' => some 0x08
  | 'f' => some 0x0c
  | 'n' => some 0x0a
  | 'r' => some 0x0d
  | 't' => some 0x09
  | _ => none

def isHighSurrogate (unit : Nat) : Bool := 0xd800 ≤ unit && unit < 0xdc00

def isLowSurrogate (unit : Nat) : Bool := 0xdc00 ≤ unit && unit < 0xe000

def encodeChar (code : Nat) : Octets := Octets.ofText (String.singleton (Char.ofNat code))

/-- The octets that a spelling stands for. A surrogate must be one half of a pair. -/
def unescape? : Octets → Option Octets
  | [] => some []
  | 0x5c :: 0x75 :: a :: b :: c :: d :: rest => do
    let unit ← hexQuad? a b c d
    if isLowSurrogate unit then
      none
    else if isHighSurrogate unit then
      match rest with
      | 0x5c :: 0x75 :: e :: f :: g :: h :: rest =>
        let low ← hexQuad? e f g h
        if isLowSurrogate low then
          return encodeChar (0x10000 + (unit - 0xd800) * 0x400 + (low - 0xdc00)) ++ (← unescape? rest)
        else
          none
      | _ => none
    else
      return encodeChar unit ++ (← unescape? rest)
  | 0x5c :: octet :: rest => return (← escaped? octet) :: (← unescape? rest)
  | octet :: rest => return octet :: (← unescape? rest)

/-- How one octet of a text is spelled. -/
def escape (octet : UInt8) : Octets :=
  match octet with
  | 0x22 => Octets.ofText "\\\""
  | 0x5c => Octets.ofText "\\\\"
  | 0x08 => Octets.ofText "\\b"
  | 0x09 => Octets.ofText "\\t"
  | 0x0a => Octets.ofText "\\n"
  | 0x0c => Octets.ofText "\\f"
  | 0x0d => Octets.ofText "\\r"
  | octet =>
    if octet < 0x20 then
      Octets.ofText "\\u00" ++
        Octets.ofAscii [Nat.digitChar (octet.toNat / 16), Nat.digitChar (octet.toNat % 16)]
    else
      [octet]

/-- The text that a string's spelling stands for. -/
def text? (spelling : Octets) : Option String := do (← unescape? spelling).toText?

namespace Value

/-! ### Wanted values -/

def ofUInt64 (n : UInt64) : Value := number (Decimal.digits n.toNat)

def ofText (text : String) : Value := string ((Octets.ofText text).flatMap escape)

/-- A record, its members in the given order. -/
def ofMembers (members : List (String × Value)) : Value :=
  object (members.map fun (key, value) ↦ ((Octets.ofText key).flatMap escape, value))

def toUInt64? : Value → Option UInt64
  | number spelling => (Decimal.read spelling).toOption
  | _ => none

def toBool? : Value → Option Bool
  | bool value => some value
  | _ => none

def toText? : Value → Option String
  | string spelling => text? spelling
  | _ => none

def toItems? : Value → Option (List Value)
  | array items => some items
  | _ => none

/-! ### Printing -/

def quoted (spelling : Octets) : Octets := 0x22 :: spelling ++ [0x22]

mutual

/-- A value without blanks. -/
def print : Value → Octets
  | null => Octets.ofText "null"
  | bool true => Octets.ofText "true"
  | bool false => Octets.ofText "false"
  | number spelling => Octets.ofAscii spelling
  | string spelling => quoted spelling
  | array items => 0x5b :: printItems items ++ [0x5d]
  | object members => 0x7b :: printMembers members ++ [0x7d]

def printItems : List Value → Octets
  | [] => []
  | [item] => item.print
  | item :: rest => item.print ++ 0x2c :: printItems rest

def printMembers : List (Octets × Value) → Octets
  | [] => []
  | [(key, value)] => quoted key ++ 0x3a :: value.print
  | (key, value) :: rest => quoted key ++ 0x3a :: value.print ++ 0x2c :: printMembers rest

end

/-- A line break and the blanks that begin a line at the given depth. -/
def newline (depth : Nat) : Octets := 0x0a :: List.replicate (2 * depth) 0x20

mutual

/-- A value with each item and member on a line of its own, indented by two blanks for each depth;
empty brackets stay together. -/
def printIndented (depth : Nat) : Value → Octets
  | array [] => Octets.ofText "[]"
  | array items => 0x5b :: printItemLines (depth + 1) items ++ newline depth ++ [0x5d]
  | object [] => [0x7b, 0x7d]
  | object members => 0x7b :: printMemberLines (depth + 1) members ++ newline depth ++ [0x7d]
  | other => other.print

def printItemLines (depth : Nat) : List Value → Octets
  | [] => []
  | [item] => newline depth ++ item.printIndented depth
  | item :: rest => newline depth ++ item.printIndented depth ++ 0x2c :: printItemLines depth rest

def printMemberLines (depth : Nat) : List (Octets × Value) → Octets
  | [] => []
  | [(key, value)] => newline depth ++ quoted key ++ 0x3a :: 0x20 :: value.printIndented depth
  | (key, value) :: rest =>
    newline depth ++ quoted key ++ 0x3a :: 0x20 :: value.printIndented depth ++
      0x2c :: printMemberLines depth rest

end

end Value

end LogSequencing.Json
