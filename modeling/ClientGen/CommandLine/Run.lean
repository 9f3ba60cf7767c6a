import ClientGen.CommandLine.Arguments
import ClientGen.Files.Store
import ClientGen.Generation.Basic
import ClientGen.Generation.Settings

/-!
# Running the program

One run reads a document and writes its client. Nothing is written, and no directory made, before
the client has been generated.
-/

namespace ClientGen.CommandLine

/-- Why a run fails. -/
inductive RunError
  | generation (error : GenerationError)
  | unreadableInput (path : String) (fault : FileFault)
  | noDirectory (fault : FileFault)
  | unwritableOutput (path : String) (fault : FileFault)

/-- The error in words. -/
def RunError.message : RunError → String
  | .generation error => error.message
  | .unreadableInput path fault => "Failed to read " ++ path ++ ": " ++ fault.message
  | .noDirectory fault => "Failed to create output directory: " ++ fault.message
  | .unwritableOutput path fault => "Failed to write " ++ path ++ ": " ++ fault.message

/-- The settings that arguments ask for. -/
def Arguments.settings (arguments : Arguments) : Except GenerationError Settings :=
  Settings.ofUser arguments.input arguments.output arguments.runtime

/-- Runs the program; the result is the path of the client. -/
def run {m : Type → Type} [Monad m] (store : FileStore m) (arguments : Arguments) :
    m (Except RunError String) :=
  ExceptT.run do
    let settings ← ExceptT.mk (pure (arguments.settings.mapError .generation))
    let path := settings.output
    let text ← ExceptT.mk
      (Except.mapError (.unreadableInput settings.input) <$> store.read settings.input)
    let doc ← ExceptT.mk
      (pure ((OpenApi.Document.ofText text).mapError fun error => .generation (.document error)))
    let code ← ExceptT.mk (pure ((doc.toApi.generate settings.target).mapError .generation))
    ExceptT.mk (Except.mapError .noDirectory <$> store.makeParent path)
    ExceptT.mk (Except.mapError (.unwritableOutput path) <$> store.write path code)
    return path

/-- The exit code of a run. -/
def exitCode : Except RunError String → UInt32
  | .ok _ => 0
  | .error _ => 1

end ClientGen.CommandLine
