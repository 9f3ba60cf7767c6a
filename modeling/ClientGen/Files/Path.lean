import ClientGen.Text.Join
import ClientGen.Text.Pieces

/-!
# Paths of files

A path is a list of names between slashes. Some names are no step to another place: an empty one,
and a single point.
-/

namespace ClientGen

/-- A path as the names between its slashes. -/
structure FilePath where
  /-- Whether it begins at the root. -/
  absolute : Bool
  names : List String
deriving DecidableEq, Repr

namespace FilePath

/-- The path that a text writes. -/
def ofText (text : String) : FilePath :=
  let names := fun (chars : List Char) => (Text.pieces '/' chars).map String.ofList
  match text.toList with
  | '/' :: rest => ⟨true, names rest⟩
  | chars => ⟨false, names chars⟩

/-- The text of a path. -/
def text (path : FilePath) : String :=
  (if path.absolute then "/" else "") ++ Text.join "/" path.names

/-- The names of a path that lead on, and a point in front of a relative path. -/
def significant (path : FilePath) : List String :=
  let rest := fun (names : List String) => names.filter fun name => name ≠ "" && name ≠ "."
  match path.absolute, path.names with
  | false, "." :: names => "." :: rest names
  | _, names => rest names

/-- The path of the directory that a path lies in, unless it is the root or the working directory
without a name. -/
def parent? (path : FilePath) : Option FilePath :=
  match path.significant.dropLast with
  | [] => if path.absolute && !path.significant.isEmpty then some ⟨true, []⟩ else none
  | names => some ⟨path.absolute, names⟩

end FilePath

end ClientGen
