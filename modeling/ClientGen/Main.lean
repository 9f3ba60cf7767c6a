import ClientGen.CommandLine.Run
import ClientGen.Files.Path

/-!
# The program

Runs on the files of the system. A failure is reported on the standard error output.
-/

open ClientGen ClientGen.CommandLine

/-- What the program is called. -/
def programName : String := "clientgen"

/-- How the program is called. -/
def usage : String :=
  "Usage: " ++ programName ++ " [-o PATH] [-r NAME] INPUT\n\n"
    ++ "  INPUT                the API document, in JSON or YAML\n"
    ++ "  -o, --output PATH    where the client goes\n"
    ++ "  -r, --runtime NAME   its validators: " ++ Target.expectedNames ++ "\n"
    ++ "  -h, --help           show this help\n"
    ++ "  -V, --version        show the version\n"

/-- A usage error in words. -/
def usageMessage : UsageError → String
  | .missingInput => "the input is missing"
  | .unknownArgument => "an argument is not expected"
  | .invalidValue => "a value is missing"
  | .conflict => "an option is given more than once"
  | .unneededValue => "an option takes no value"
  | .helpWanted => ""
  | .versionWanted => ""

/-- The fault that an error of the system is. -/
def faultOf : IO.Error → FileFault
  | .noFileOrDirectory _ _ _ => .notFound
  | .alreadyExists _ _ _ => .alreadyExists
  | .inappropriateType _ code _ => if code = 21 then .isDirectory else .notDirectory
  | error => .other (toString error)

/-- The result of an action on files. -/
def attempt {α : Type} (action : IO α) : IO (Except FileFault α) := do
  try
    return .ok (← action)
  catch error =>
    return .error (faultOf error)

/-- The files of the system. -/
def systemStore : FileStore IO where
  read path := attempt (IO.FS.readFile path)
  makeParent path :=
    match (FilePath.ofText path).parent? with
    | some parent => attempt (IO.FS.createDirAll parent.text)
    | none => return .ok ()
  write path text := attempt (IO.FS.writeFile path text)

def main (words : List String) : IO UInt32 := do
  match Arguments.read words with
  | .ok arguments =>
    let result ← run systemStore arguments
    if let .error error := result then IO.eprintln error.message
    return exitCode result
  | .error .helpWanted =>
    IO.print usage
    return 0
  | .error .versionWanted =>
    IO.println (programName ++ " 0.1.0")
    return 0
  | .error error =>
    IO.eprintln ("error: " ++ usageMessage error)
    return 2
