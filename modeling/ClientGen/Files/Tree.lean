import ClientGen.Files.Path
import ClientGen.Files.Store

/-!
# A tree of files

A store of files as a value. Every place in the tree is a list of names from its root, and holds a
file or a directory. A path is followed name by name from the root or from the working directory,
and every name but the last has to be that of a directory.
-/

namespace ClientGen

/-- What is at a place. -/
inductive FileNode
  | file (text : String)
  | directory
deriving DecidableEq, Repr

/-- Files and directories by their places. The root is always a directory. -/
structure FileTree where
  nodes : List (List String × FileNode) := []
  /-- Where relative paths begin. -/
  working : List String := []

namespace FileTree

/-- What is at a place. -/
def node? (tree : FileTree) (place : List String) : Option FileNode :=
  if place.isEmpty then some .directory else tree.nodes.lookup place

/-- The tree with a place that holds something else than before, or anything at all. -/
def put (tree : FileTree) (place : List String) (node : FileNode) : FileTree :=
  { tree with nodes := tree.nodes.filter (fun entry => entry.1 ≠ place) ++ [(place, node)] }

/-- The place that names lead to from another. -/
def walk (tree : FileTree) (place : List String) : List String → Except FileFault (List String)
  | [] => .ok place
  | name :: rest =>
    match tree.node? place with
    | none => .error .notFound
    | some (.file _) => .error .notDirectory
    | some .directory =>
      if name = "" ∨ name = "." then walk tree place rest
      else if name = ".." then walk tree place.dropLast rest
      else walk tree (place ++ [name]) rest

/-- The place of a path. -/
def locate (tree : FileTree) (path : FilePath) : Except FileFault (List String) :=
  if path.absolute then tree.walk [] path.names
  else if path.names.all (· = "") then .error .notFound
  else tree.walk tree.working path.names

/-! ### Operations -/

/-- The text of a file. -/
def read (tree : FileTree) (path : FilePath) : Except FileFault String := do
  match tree.node? (← tree.locate path) with
  | none => throw .notFound
  | some .directory => throw .isDirectory
  | some (.file text) => return text

/-- Whether a path leads to a directory. -/
def isDirectory (tree : FileTree) (path : FilePath) : Bool :=
  match tree.locate path with
  | .ok place => tree.node? place == some .directory
  | .error _ => false

/-- The tree with one more directory. -/
def makeDirectory (tree : FileTree) (path : FilePath) : Except FileFault FileTree := do
  let place ← tree.locate path
  match tree.node? place with
  | none => return tree.put place .directory
  | some _ => throw .alreadyExists

/-- Makes a directory, unless it is there. -/
def ensureDirectory (tree : FileTree) (path : FilePath) : FileTree × Except FileFault Unit :=
  match tree.makeDirectory path with
  | .ok tree => (tree, .ok ())
  | .error fault => (tree, if tree.isDirectory path then .ok () else .error fault)

/-- Makes a directory and those around it that are missing. The names are in reverse. -/
def ensureAll (tree : FileTree) (absolute : Bool) : List String → FileTree × Except FileFault Unit
  | [] => (tree, .ok ())
  | name :: outer =>
    let path : FilePath := ⟨absolute, (name :: outer).reverse⟩
    match tree.makeDirectory path with
    | .error .notFound =>
      match ensureAll tree absolute outer with
      | (tree, .ok ()) => tree.ensureDirectory path
      | (tree, .error fault) => (tree, .error fault)
    | _ => tree.ensureDirectory path

/-- Makes the directory that a path lies in, and those around it. -/
def makeParent (tree : FileTree) (path : FilePath) : FileTree × Except FileFault Unit :=
  match path.parent? with
  | some parent => tree.ensureAll parent.absolute parent.names.reverse
  | none => (tree, .ok ())

/-- Makes a text the content of a file. -/
def write (tree : FileTree) (path : FilePath) (text : String) : Except FileFault FileTree := do
  let place ← tree.locate path
  if tree.node? place = some .directory then throw .isDirectory
  return tree.put place (.file text)

/-- The operations on a tree as those of a store. -/
def store : FileStore (StateM FileTree) where
  read path := return (← get).read (.ofText path)
  makeParent path := do
    let (tree, result) := (← get).makeParent (.ofText path)
    set tree
    return result
  write path text := do
    match (← get).write (.ofText path) text with
    | .ok tree => do
      set tree
      return .ok ()
    | .error fault => return .error fault

end FileTree

end ClientGen
