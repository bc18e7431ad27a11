import LogSequencing.Json.Token
import LogSequencing.Json.Value

/-!
# Reading JSON

`Reader.run?` builds a value from tokens with an explicit stack of the arrays and objects that are
still open, so how deep a text nests costs no recursion. `Value.ofOctets?` reads a whole text.
-/

set_option autoImplicit false
set_option relaxedAutoImplicit false

namespace LogSequencing.Json

/-- An array or object that is still open, with what it holds so far in reverse. -/
inductive Frame where
  | array (items : List Value)
  /-- An object whose member of the given key is being read. -/
  | object (members : List (Octets × Value)) (key : Octets)
deriving Repr

/-- Where a reader stands. -/
inductive Reader where
  | beforeValue
  /-- An array was just opened. -/
  | beforeFirstItem
  | beforeKey (members : List (Octets × Value))
  /-- An object was just opened. -/
  | beforeFirstKey
  | afterKey (members : List (Octets × Value)) (key : Octets)
  | afterValue (value : Value)
deriving Repr

namespace Reader

/-- Where the first token of a value leads, and the frames then open. -/
def beginValue? (frames : List Frame) : Token → Option (Reader × List Frame)
  | .null => some (afterValue .null, frames)
  | .bool value => some (afterValue (.bool value), frames)
  | .number spelling => some (afterValue (.number spelling), frames)
  | .string spelling => some (afterValue (.string spelling), frames)
  | .openBracket => some (beforeFirstItem, .array [] :: frames)
  | .openBrace => some (beforeFirstKey, frames)
  | _ => none

def step? : Reader → List Frame → Token → Option (Reader × List Frame)
  | beforeValue, frames, token => beginValue? frames token
  | beforeFirstItem, .array [] :: frames, .closeBracket => some (afterValue (.array []), frames)
  | beforeFirstItem, frames, token => beginValue? frames token
  | beforeFirstKey, frames, .closeBrace => some (afterValue (.object []), frames)
  | beforeFirstKey, frames, .string key => some (afterKey [] key, frames)
  | beforeKey members, frames, .string key => some (afterKey members key, frames)
  | afterKey members key, frames, .colon => some (beforeValue, .object members key :: frames)
  | afterValue value, .array items :: frames, .comma =>
    some (beforeValue, .array (value :: items) :: frames)
  | afterValue value, .array items :: frames, .closeBracket =>
    some (afterValue (.array (value :: items).reverse), frames)
  | afterValue value, .object members key :: frames, .comma =>
    some (beforeKey ((key, value) :: members), frames)
  | afterValue value, .object members key :: frames, .closeBrace =>
    some (afterValue (.object ((key, value) :: members).reverse), frames)
  | _, _, _ => none

/-- Reads all tokens; at their end a value must be complete and every frame closed. -/
def run? : Reader → List Frame → List Token → Option Value
  | afterValue value, [], [] => some value
  | _, _, [] => none
  | reader, frames, token :: tokens => do
    let (reader, frames) ← step? reader frames token
    run? reader frames tokens

end Reader

/-- The value that a text spells. -/
def Value.ofOctets? (octets : Octets) : Option Value := do
  Reader.run? .beforeValue [] (← Token.ofOctets? octets)

end LogSequencing.Json
