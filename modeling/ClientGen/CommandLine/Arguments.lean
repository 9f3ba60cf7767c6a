/-!
# Arguments of the program

One positional argument, the input, and two options with a value each: `-o` or `--output` and `-r`
or `--runtime`. The value is the next argument, or follows the option's letter or an equals sign.
After `--` every argument is positional. An argument takes effect when the next one is looked at, so
that of two faults in a row the first counts.
-/

namespace ClientGen.CommandLine

/-- What a user asks for. -/
structure Arguments where
  input : String
  output : Option String := none
  runtime : String := "none"
deriving DecidableEq, Repr

/-- Why there is nothing to do. -/
inductive UsageError
  | missingInput
  | unknownArgument
  /-- An option without a value, or a value that may not be empty. -/
  | invalidValue
  /-- An option that is given twice. -/
  | conflict
  /-- A value for an option that takes none. -/
  | unneededValue
  | helpWanted
  | versionWanted
deriving DecidableEq, Repr

/-- Something that takes a value. -/
inductive Slot
  | input
  | output
  | runtime
deriving DecidableEq, Repr

/-- What an option does. -/
inductive Switch
  | takes (slot : Slot)
  | stops (error : UsageError)
deriving DecidableEq, Repr

/-- The option with a letter. -/
def Switch.ofLetter? : Char → Option Switch
  | 'o' => some (takes .output)
  | 'r' => some (takes .runtime)
  | 'h' => some (stops .helpWanted)
  | 'V' => some (stops .versionWanted)
  | _ => none

/-- The option with a name. -/
def Switch.ofName? (name : String) : Option Switch :=
  if name = "output" then some (takes .output)
  else if name = "runtime" then some (takes .runtime)
  else if name = "help" then some (stops .helpWanted)
  else if name = "version" then some (stops .versionWanted)
  else none

/-- Arguments that are read in part. -/
structure Progress where
  /-- Values that have taken effect. -/
  values : List (Slot × String) := []
  /-- What the latest argument is about, with its value if it is known. -/
  pending : Option (Slot × Option String) := none
  /-- Whether there has been a positional argument. -/
  positional : Bool := false

namespace Progress

/-- The value of a slot. -/
def value? (progress : Progress) (slot : Slot) : Option String :=
  progress.values.lookup slot

/-- Lets the latest argument take effect. -/
def settle (progress : Progress) : Except UsageError Progress :=
  match progress.pending with
  | none => .ok progress
  | some (_, none) => .error .invalidValue
  | some (slot, some value) =>
    if (progress.value? slot).isSome then .error .conflict
    else if value = "" ∧ slot ≠ .runtime then .error .invalidValue
    else .ok { progress with values := (slot, value) :: progress.values, pending := none }

/-- Reads an option with the value that is part of its argument, if there is one. -/
def readSwitch (progress : Progress) (attached : Option String) :
    Switch → Except UsageError Progress
  | .takes slot => do
    let progress := { ← progress.settle with pending := some (slot, attached) }
    if attached.isSome then progress.settle else return progress
  | .stops error => do
    let _ ← progress.settle
    throw error

/-- Reads an option with a name, after its two dashes. -/
def readLong (progress : Progress) (text : List Char) : Except UsageError Progress :=
  let name := text.takeWhile (· ≠ '=')
  let attached := match text.drop name.length with
    | _ :: value => some (String.ofList value)
    | [] => none
  match Switch.ofName? (String.ofList name), attached with
  | none, _ => .error .unknownArgument
  | some (.stops _), some _ => .error .unneededValue
  | some switch, _ => progress.readSwitch attached switch

/-- Reads options with letters, after their dash. -/
def readShort (progress : Progress) (letter : Char) (text : List Char) :
    Except UsageError Progress :=
  let attached := match text with
    | [] => none
    | '=' :: value => some (String.ofList value)
    | value => some (String.ofList value)
  match Switch.ofLetter? letter with
  | none => .error .unknownArgument
  | some switch => progress.readSwitch attached switch

/-- Reads a positional argument. -/
def readPositional (progress : Progress) (argument : String) : Except UsageError Progress :=
  if progress.positional then .error .unknownArgument
  else do
    return { ← progress.settle with pending := some (.input, some argument), positional := true }

/-- Reads an argument that is no option. -/
def readValue (progress : Progress) (argument : String) : Except UsageError Progress :=
  match progress.pending with
  | some (slot, none) => .ok { progress with pending := some (slot, some argument) }
  | _ => progress.readPositional argument

/-- Reads all arguments. -/
def readAll (progress : Progress) : List String → Except UsageError Progress
  | [] => progress.settle
  | argument :: rest =>
    match argument.toList with
    | ['-', '-'] => do (← rest.foldlM readPositional progress).settle
    | '-' :: '-' :: text => do readAll (← progress.readLong text) rest
    | '-' :: letter :: text => do readAll (← progress.readShort letter text) rest
    | _ => do readAll (← progress.readValue argument) rest

end Progress

/-- The arguments that a list of words makes up. -/
def Arguments.read (words : List String) : Except UsageError Arguments := do
  let progress ← ({} : Progress).readAll words
  match progress.value? .input with
  | none => throw .missingInput
  | some input =>
    return ⟨input, progress.value? .output, (progress.value? .runtime).getD "none"⟩

end ClientGen.CommandLine
