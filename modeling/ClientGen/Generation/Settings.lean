import ClientGen.Generation.Error
import ClientGen.Text.Blank

/-!
# Settings of a generation

Where the document is, where the client goes, and what it comes with. The name of the target is
checked before the path of the output.
-/

namespace ClientGen

/-- The target with a name that a user gives. -/
def Target.choose (name : String) : Except GenerationError Target :=
  match Target.ofName? name with
  | some target => .ok target
  | .none => .error (.unknownTarget name)

/-- Settings that have been checked. -/
structure Settings where
  input : String
  output : String
  target : Target
deriving DecidableEq, Repr

namespace Settings

/-- Where the client of a document goes unless something else is asked for. -/
def defaultOutput (input : String) (target : Target) : String :=
  input ++ "." ++ target.fileTag ++ ".ts"

/-- The path of an output: it is not blank and does not end in a slash. -/
def checkOutput (path : String) : Except GenerationError String :=
  if Text.trim path = "" then .error (.invalidOutput .blank)
  else if path.toList.getLast? = some '/' then .error (.invalidOutput (.directory path))
  else .ok path

/-- The settings that a user asks for. -/
def ofUser (input : String) (output : Option String) (target : String) :
    Except GenerationError Settings := do
  let target ← Target.choose target
  let output ← match output with
    | some path => checkOutput path
    | none => pure (defaultOutput input target)
  return ⟨input, output, target⟩

end Settings

end ClientGen
