import ClientGen.OpenApi.Source
import ClientGen.Target

/-!
# Errors of a generation

Why no client is generated. Errors of the configuration are found before any document is read.
-/

namespace ClientGen

/-- Why a path cannot be that of the output. -/
inductive OutputFault
  | blank
  | directory (path : String)
deriving DecidableEq, Repr

/-- What is wrong with the path, in words. -/
def OutputFault.message : OutputFault → String
  | .blank => "path is empty"
  | .directory path => "\x27" ++ path ++ "\x27 names a directory, expected a file"

/-- Why no client is generated. -/
inductive GenerationError
  | unknownTarget (name : String)
  | invalidOutput (fault : OutputFault)
  | document (error : OpenApi.DocumentError)
  /-- A reference to a type that is nowhere defined. -/
  | danglingReference (key : String)

namespace GenerationError

/-- The error in words. -/
def message : GenerationError → String
  | unknownTarget name =>
    "Invalid runtime \x27" ++ name ++ "\x27. Expected one of: " ++ Target.expectedNames
  | invalidOutput fault => "Invalid output path: " ++ fault.message
  | document error => "Failed to parse OpenAPI document: " ++ error.message
  | danglingReference key => "Dangling reference to \x27" ++ key ++ "\x27"

/-- Whether the configuration is at fault. -/
def isConfiguration : GenerationError → Bool
  | unknownTarget _ => true
  | invalidOutput _ => true
  | document _ => false
  | danglingReference _ => false

end GenerationError

end ClientGen
