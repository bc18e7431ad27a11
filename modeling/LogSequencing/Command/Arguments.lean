import LogSequencing.Command

/-!
# Arguments

Arguments are read from left to right. Options that hold for every command stand before its name, and
its own options after it. The value of an option is the next argument or follows an equals sign. Two
dashes alone end the options. Reading stops at the first fault, and at a request for help or for the
version number.
-/

set_option autoImplicit false
set_option relaxedAutoImplicit false

namespace LogSequencing

/-- What an argument looks like. -/
inductive ArgumentForm where
  /-- A value or the name of a command. A single dash is one too. -/
  | operand
  /-- Two dashes alone. -/
  | separator
  /-- The name of an option after two dashes, and what follows an equals sign. -/
  | long (name : String) (value? : Option String)
  /-- The first letter after a single dash. -/
  | short (letter : Char)
deriving DecidableEq, Repr

namespace ArgumentForm

/-- The form of an option written with two dashes. -/
def ofLong (text : List Char) : ArgumentForm :=
  let name := String.ofList (text.takeWhile (· ≠ '='))
  match text.dropWhile (· ≠ '=') with
  | [] => long name none
  | _ :: value => long name (some (String.ofList value))

def ofText (argument : String) : ArgumentForm :=
  match argument.toList with
  | ['-', '-'] => separator
  | '-' :: '-' :: text => ofLong text
  | '-' :: letter :: _ => short letter
  | _ => operand

end ArgumentForm

/-- What an option takes. -/
inductive OptionKind where
  | path
  | number
deriving DecidableEq, Repr

/-- A path is not empty, and a number has at most 64 bits. -/
def OptionKind.accepts : OptionKind → String → Bool
  | path, text => text ≠ ""
  | number, text => (Decimal.read text.toList).isOk

/-- What is wrong with arguments. -/
inductive Misuse where
  | unexpected (argument : String)
  | missingValue (option : String)
  | invalidValue (option value : String)
  | repeated (option : String)
  | missing (option : String)
  | missingCommand
  | unknownCommand (name : String)
deriving DecidableEq, Repr

def Misuse.message : Misuse → String
  | unexpected argument => "unexpected argument '" ++ argument ++ "'"
  | missingValue option => "a value is required for '--" ++ option ++ "'"
  | invalidValue option value => "invalid value '" ++ value ++ "' for '--" ++ option ++ "'"
  | repeated option => "'--" ++ option ++ "' cannot be used multiple times"
  | missing option => "'--" ++ option ++ "' was not provided"
  | missingCommand => "a command is required"
  | unknownCommand name => "unrecognized command '" ++ name ++ "'"

/-- Why arguments ask for no command. -/
inductive Interruption where
  | help
  | version
  | misuse (misuse : Misuse)
deriving DecidableEq, Repr

/-! ### Options -/

/-- The options that may be given at some place, and whether the version may be asked for there. -/
structure OptionSet where
  kinds : List (String × OptionKind)
  versioned : Bool

/-- The values of options, by name. -/
abbrev OptionValues := List (String × String)

namespace OptionSet

/-- Notes the value of an option. -/
def note (options : OptionSet) (values : OptionValues) (name value : String) :
    Except Interruption OptionValues :=
  if ¬ (options.kinds.lookup name).any (·.accepts value) then
    .error (.misuse (.invalidValue name value))
  else if (values.lookup name).isSome then
    .error (.misuse (.repeated name))
  else
    .ok ((name, value) :: values)

/-- What comes of an option without a value, apart from taking the next argument. -/
def interruption? (options : OptionSet) (name : String) : Option Interruption :=
  if name = "help" then some .help
  else if name = "version" ∧ options.versioned then some .version
  else none

/-- What comes of a letter after a single dash. -/
def ofLetter (options : OptionSet) (argument : String) (letter : Char) : Interruption :=
  if letter = 'h' then .help
  else if letter = 'V' ∧ options.versioned then .version
  else .misuse (.unexpected argument)

/-- Reads options up to the first operand, from which on the arguments are returned too. -/
def read (options : OptionSet) (values : OptionValues) :
    List String → Except Interruption (OptionValues × List String)
  | [] => .ok (values, [])
  | argument :: rest =>
    match ArgumentForm.ofText argument with
    | .operand => .ok (values, argument :: rest)
    | .separator =>
      match rest with
      | [] => .ok (values, [])
      | next :: _ => .error (.misuse (.unexpected next))
    | .short letter => .error (options.ofLetter argument letter)
    | .long name value? =>
      match options.kinds.lookup name, value?, options.interruption? name with
      | some _, some value, _ =>
        match options.note values name value with
        | .error interruption => .error interruption
        | .ok values => read options values rest
      | some _, none, _ =>
        match rest with
        | [] => .error (.misuse (.missingValue name))
        | value :: rest =>
          if ArgumentForm.ofText value ≠ .operand then
            .error (.misuse (.missingValue name))
          else
            match options.note values name value with
            | .error interruption => .error interruption
            | .ok values => read options values rest
      | none, none, some interruption => .error interruption
      | none, _, _ => .error (.misuse (.unexpected argument))

/-- Reads options that nothing may follow. -/
def readAll (options : OptionSet) (arguments : List String) : Except Interruption OptionValues := do
  match ← options.read [] arguments with
  | (values, []) => return values
  | (_, next :: _) => throw (.misuse (.unexpected next))

end OptionSet

namespace OptionValues

def number? (values : OptionValues) (name : String) : Option UInt64 :=
  (values.lookup name).bind fun text ↦ (Decimal.read text.toList).toOption

/-- The number of an option that has to be given. -/
def number (values : OptionValues) (name : String) : Except Interruption UInt64 :=
  match number? values name with
  | some n => .ok n
  | none => .error (.misuse (.missing name))

end OptionValues

/-! ### Commands -/

/-- Options that all take numbers. -/
def OptionSet.numbers (names : List String) : OptionSet := ⟨names.map (·, .number), false⟩

/-- The partition named by the only option. -/
def readPartition (arguments : List String) : Except Interruption PartitionId := do
  let values ← (OptionSet.numbers ["partition"]).readAll arguments
  return ⟨← OptionValues.number values "partition"⟩

def readAppend (arguments : List String) : Except Interruption Command := do
  let options := OptionSet.numbers ["partition", "workspace", "events", "records", "compacting"]
  let values ← options.readAll arguments
  let partition ← OptionValues.number values "partition"
  let workspace ← OptionValues.number values "workspace"
  let count (name : String) (byDefault : Nat) : Nat :=
    ((OptionValues.number? values name).map UInt64.toNat).getD byDefault
  return .append ⟨partition⟩ ⟨⟨workspace⟩, count "events" 1, count "records" 1, count "compacting" 0⟩

/-- Whether there is a command or a group of commands of these names. -/
def isTopic : List String → Bool
  | [] | ["append"] | ["recover"] | ["help"] => true
  | "prp" :: topic => [[], ["show"], ["sync"], ["help"]].contains topic
  | _ => false

/-- A request for help on a topic. -/
def helpOn (topic : List String) : Interruption :=
  if isTopic topic then .help else .misuse (.unknownCommand (String.intercalate " " topic))

/-- The commands on recovery points. -/
def readPointCommand (arguments : List String) : Except Interruption Command := do
  let (_, rest) ← (OptionSet.numbers []).read [] arguments
  match rest with
  | [] => throw (.misuse .missingCommand)
  | "show" :: rest => return .showPoint (← readPartition rest)
  | "sync" :: rest => return .syncPoint (← readPartition rest)
  | "help" :: topic => throw (helpOn ("prp" :: topic))
  | name :: _ => throw (.misuse (.unknownCommand name))

def readCommand : List String → Except Interruption Command
  | [] => .error (.misuse .missingCommand)
  | "append" :: rest => readAppend rest
  | "recover" :: rest => (readPartition rest).map .recover
  | "prp" :: rest => readPointCommand rest
  | "help" :: topic => .error (helpOn topic)
  | name :: _ => .error (.misuse (.unknownCommand name))

/-- A command and what it works with. -/
structure Invocation where
  dataDirectory : String
  configFile? : Option String
  /-- How many seconds a partition is given to recover. -/
  recoveryTimeout : UInt64
  command : Command
deriving DecidableEq, Repr

namespace Invocation

/-- The options that hold for every command. -/
def options : OptionSet :=
  ⟨[("data-dir", .path), ("config", .path), ("recovery-timeout", .number)], true⟩

def read (arguments : List String) : Except Interruption Invocation := do
  let (values, rest) ← options.read [] arguments
  let command ← readCommand rest
  return {
    dataDirectory := (values.lookup "data-dir").getD "./seqengine-data"
    configFile? := values.lookup "config"
    recoveryTimeout := (OptionValues.number? values "recovery-timeout").getD 30
    command }

end Invocation

end LogSequencing
