import LogSequencing.Text.Octets

/-!
# JSON tokens

The words of a JSON text. `Token.ofOctets?` cuts a text into them: blanks separate, every other
octet belongs to exactly one token, and a text with an octet that begins none is refused. Strings
keep their spelling; only that each escape is one of the known forms and that no control character
stands between the quotes is checked here.
-/

set_option autoImplicit false
set_option relaxedAutoImplicit false

namespace LogSequencing.Json

inductive Token where
  | openBracket
  | closeBracket
  | openBrace
  | closeBrace
  | colon
  | comma
  | null
  | bool (value : Bool)
  | number (spelling : List Char)
  | string (spelling : Octets)
deriving DecidableEq, Repr

def isSpace (octet : UInt8) : Bool :=
  octet = 0x20 || octet = 0x09 || octet = 0x0a || octet = 0x0d

def isDigit (octet : UInt8) : Bool := 0x30 ≤ octet && octet ≤ 0x39

def isHexDigit (octet : UInt8) : Bool :=
  isDigit octet || (0x41 ≤ octet && octet ≤ 0x46) || (0x61 ≤ octet && octet ≤ 0x66)

/-- The octets that may follow a backslash, apart from `u`. -/
def escapable : Octets := Octets.ofText "\"\\/bfnrt"

/-- The spelling of a string up to its closing quote, and what follows the quote. -/
def stringAndRest? : Octets → Option (Octets × Octets)
  | [] => none
  | 0x22 :: rest => some ([], rest)
  | 0x5c :: 0x75 :: a :: b :: c :: d :: rest =>
    if isHexDigit a && isHexDigit b && isHexDigit c && isHexDigit d then
      (stringAndRest? rest).map fun (spelling, rest) ↦
        (0x5c :: 0x75 :: a :: b :: c :: d :: spelling, rest)
    else
      none
  | 0x5c :: octet :: rest =>
    if octet ∈ escapable then
      (stringAndRest? rest).map fun (spelling, rest) ↦ (0x5c :: octet :: spelling, rest)
    else
      none
  | octet :: rest =>
    if octet < 0x20 || octet = 0x5c then
      none
    else
      (stringAndRest? rest).map fun (spelling, rest) ↦ (octet :: spelling, rest)

/-- One digit or more, and what follows them. -/
def digitsAndRest? (octets : Octets) : Option (Octets × Octets) :=
  match octets.takeWhile isDigit with
  | [] => none
  | digits => some (digits, octets.dropWhile isDigit)

/-- The whole part of a number: a lone zero, or digits of which the first is not zero. -/
def wholeAndRest? : Octets → Option (Octets × Octets)
  | 0x30 :: rest => some ([0x30], rest)
  | octets => digitsAndRest? octets

def fractionAndRest? : Octets → Option (Octets × Octets)
  | 0x2e :: rest => (digitsAndRest? rest).map fun (digits, rest) ↦ (0x2e :: digits, rest)
  | octets => some ([], octets)

/-- An `e`, perhaps a sign, and digits; or nothing. -/
def exponentAndRest? : Octets → Option (Octets × Octets)
  | e :: rest =>
    if e = 0x65 || e = 0x45 then
      match rest with
      | 0x2b :: rest => (digitsAndRest? rest).map fun (digits, rest) ↦ (e :: 0x2b :: digits, rest)
      | 0x2d :: rest => (digitsAndRest? rest).map fun (digits, rest) ↦ (e :: 0x2d :: digits, rest)
      | _ => (digitsAndRest? rest).map fun (digits, rest) ↦ (e :: digits, rest)
    else
      some ([], e :: rest)
  | [] => some ([], [])

def unsignedAndRest? (octets : Octets) : Option (Octets × Octets) := do
  let (whole, rest) ← wholeAndRest? octets
  let (fraction, rest) ← fractionAndRest? rest
  let (exponent, rest) ← exponentAndRest? rest
  return (whole ++ fraction ++ exponent, rest)

def numberAndRest? : Octets → Option (Octets × Octets)
  | 0x2d :: rest => (unsignedAndRest? rest).map fun (number, rest) ↦ (0x2d :: number, rest)
  | octets => unsignedAndRest? octets

/-- What follows `word` where a text begins with it. -/
def dropWord? (word octets : Octets) : Option Octets :=
  if octets.take word.length = word then some (octets.drop word.length) else none

namespace Token

/-- The token that begins with `first`, and what follows it. -/
def next? (first : UInt8) (rest : Octets) : Option (Token × Octets) :=
  match Char.ofUInt8 first with
  | '[' => some (openBracket, rest)
  | ']' => some (closeBracket, rest)
  | '{' => some (openBrace, rest)
  | '}' => some (closeBrace, rest)
  | ':' => some (colon, rest)
  | ',' => some (comma, rest)
  | 'n' => (dropWord? (Octets.ofText "ull") rest).map fun rest ↦ (null, rest)
  | 't' => (dropWord? (Octets.ofText "rue") rest).map fun rest ↦ (bool true, rest)
  | 'f' => (dropWord? (Octets.ofText "alse") rest).map fun rest ↦ (bool false, rest)
  | '"' => (stringAndRest? rest).map fun (spelling, rest) ↦ (string spelling, rest)
  | _ => (numberAndRest? (first :: rest)).map fun (spelling, rest) ↦ (number spelling.toChars, rest)

/-- The tokens of a text. Each takes one octet or more, so `fuel` need not exceed the number of
octets. -/
def ofOctetsWithin? : (fuel : Nat) → Octets → Option (List Token)
  | _, [] => some []
  | 0, _ => none
  | fuel + 1, first :: rest =>
    if isSpace first then
      ofOctetsWithin? fuel rest
    else do
      let (token, rest) ← next? first rest
      return token :: (← ofOctetsWithin? fuel rest)

def ofOctets? (octets : Octets) : Option (List Token) := ofOctetsWithin? octets.length octets

end Token

end LogSequencing.Json
