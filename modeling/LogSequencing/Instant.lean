/-!
# Instants

A moment of time in UTC, and its count of milliseconds since the beginning of 1970. Instants
within the years -262143 to 262142 are representable.
-/

set_option autoImplicit false
set_option relaxedAutoImplicit false

namespace LogSequencing

/-- A moment as whole seconds since the beginning of 1970 and nanoseconds. A leap second counts
as part of the second before it, which then has up to 2·10⁹ nanoseconds. -/
structure Instant where
  seconds : Int
  nanoseconds : Nat
deriving DecidableEq, Repr, Inhabited

namespace Instant

/-- Milliseconds since the beginning of 1970, what is left over cut off. -/
def milliseconds (t : Instant) : Int := t.seconds * 1000 + (t.nanoseconds / 1000000 : Nat)

def ofMilliseconds (n : Int) : Instant := ⟨n / 1000, (n % 1000).toNat * 1000000⟩

/-- The seconds of the first and the last representable instant. -/
def firstSecond : Int := -8334601228800

def lastSecond : Int := 8210266876799

def isRepresentable (t : Instant) : Bool :=
  decide (firstSecond ≤ t.seconds) && decide (t.seconds ≤ lastSecond)

/-- The instant of a count of milliseconds, where it is representable. -/
def ofMilliseconds? (n : Int) : Option Instant :=
  if (ofMilliseconds n).isRepresentable then some (ofMilliseconds n) else none

end Instant

end LogSequencing
