import LogSequencing.Json.Record
import LogSequencing.Serial

/-!
# Serial numbers in JSON

A serial number is stored as a plain number.
-/

set_option autoImplicit false
set_option relaxedAutoImplicit false

namespace LogSequencing

open Json

namespace Serial

variable {space : Space}

def ofJson? (value : Value) : Option (Serial space) := value.toUInt64?.map mk

instance : Stored (Serial space) := ⟨fun n ↦ .ofUInt64 n.val, ofJson?⟩

end Serial

end LogSequencing
