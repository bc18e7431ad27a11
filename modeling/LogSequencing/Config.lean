import LogSequencing.Json.Record

/-!
# Configuration

When checkpoints are written and how long to wait before an attempt that failed is made again.
-/

set_option autoImplicit false
set_option relaxedAutoImplicit false

namespace LogSequencing

open Json

/-- Why a configuration is refused. -/
inductive ConfigError where
  /-- The text is no JSON of the expected form. -/
  | malformed
  | zeroThreshold
  | zeroBaseDelay
  | baseExceedsMax (base max : UInt64)
deriving DecidableEq, Repr

def ConfigError.reason : ConfigError → String
  | malformed => "malformed config"
  | zeroThreshold => "flush_threshold must be at least 1"
  | zeroBaseDelay => "retry_base_delay_ms must be at least 1"
  | baseExceedsMax base max =>
    "retry_base_delay_ms (" ++ Decimal.text base.toNat ++ ") exceeds retry_max_delay_ms (" ++
      Decimal.text max.toNat ++ ")"

structure Config where
  /-- The number of finished events after which a checkpoint is written. -/
  flushThreshold : UInt64
  /-- Milliseconds to wait after the first failure. -/
  retryBaseDelay : UInt64
  /-- No wait is longer than so many milliseconds. -/
  retryMaxDelay : UInt64
deriving DecidableEq, Repr

namespace Config

def default : Config := ⟨100, 5, 250⟩

def fieldNames : List String :=
  ["flush_threshold", "retry_base_delay_ms", "retry_max_delay_ms"]

def ofJson? (value : Value) : Option Config := do
  let [threshold, base, max] ← value.toFields? fieldNames | none
  return {
    flushThreshold := ← withDefault? default.flushThreshold Stored.ofJson? threshold
    retryBaseDelay := ← withDefault? default.retryBaseDelay Stored.ofJson? base
    retryMaxDelay := ← withDefault? default.retryMaxDelay Stored.ofJson? max }

def validate (config : Config) : Except ConfigError Unit :=
  if config.flushThreshold = 0 then
    .error .zeroThreshold
  else if config.retryBaseDelay = 0 then
    .error .zeroBaseDelay
  else if config.retryMaxDelay < config.retryBaseDelay then
    .error (.baseExceedsMax config.retryBaseDelay config.retryMaxDelay)
  else
    .ok ()

/-- Reads a configuration; what it leaves out has its default. -/
def ofText (octets : Octets) : Except ConfigError Config :=
  match (Value.ofOctets? octets).bind ofJson? with
  | none => .error .malformed
  | some config => config.validate.map fun _ ↦ config

/-- The delay is not doubled more often than this. -/
def maxDoublings : Nat := 16

/-- The product of two counts, or the greatest count where it is too large for one. -/
def saturatingMul (a b : UInt64) : UInt64 :=
  if a.toNat * b.toNat < UInt64.size then a * b else 0xffffffffffffffff

/-- Milliseconds to wait after the failure of an attempt, the first one being 1: the base delay
doubled for each attempt before it, up to the greatest delay. -/
def retryDelay (config : Config) (attempt : Nat) : Nat :=
  let factor : UInt64 := 1 <<< UInt64.ofNat (min (attempt - 1) maxDoublings)
  min (saturatingMul config.retryBaseDelay factor).toNat config.retryMaxDelay.toNat

end Config

end LogSequencing
