/-!
# Stores of files

What a program needs of the place where its files are: reading a file, making a directory with all
those it lies in, and writing a file. Each of them can fail.
-/

namespace ClientGen

/-- Why an operation on files fails. -/
inductive FileFault
  | notFound
  | alreadyExists
  | notDirectory
  | isDirectory
  | other (text : String)
deriving DecidableEq, Repr

/-- A fault as the system words it. -/
def FileFault.systemText (words : String) (number : Nat) : String :=
  words ++ " (os error " ++ toString number ++ ")"

/-- The fault in words. -/
def FileFault.message : FileFault → String
  | .notFound => systemText "No such file or directory" 2
  | .alreadyExists => systemText "File exists" 17
  | .notDirectory => systemText "Not a directory" 20
  | .isDirectory => systemText "Is a directory" 21
  | .other text => text

/-- A place where files are, with operations in the monad `m`. -/
structure FileStore (m : Type → Type) where
  /-- The text of the file at a path. -/
  read : String → m (Except FileFault String)
  /-- Makes the directory that a file at a path lies in, and all directories around it. -/
  makeParent : String → m (Except FileFault Unit)
  /-- Makes a text the content of the file at a path. -/
  write : String → String → m (Except FileFault Unit)

end ClientGen
