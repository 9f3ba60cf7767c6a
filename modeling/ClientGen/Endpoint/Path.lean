/-!
# Path templates

A path such as `/pets/{id}` split into fixed text and named placeholders. A brace that is never
closed is text, and so is a closing brace without an opening one.
-/

namespace ClientGen

/-- A piece of a path. -/
inductive PathSegment
  | literal (text : String)
  | param (name : String)
deriving DecidableEq, Repr

namespace PathSegment

/-- The text of a literal, unless it is empty. -/
def literal? (text : List Char) : List PathSegment :=
  if text.isEmpty then [] else [.literal (String.ofList text)]

mutual

/-- The segments of a path after fixed text that is read so far, the latest character first. -/
def outside (text : List Char) : List Char → List PathSegment
  | [] => literal? text.reverse
  | c :: rest =>
    if c = '\x7b' then literal? text.reverse ++ inside [] rest else outside (c :: text) rest

/-- The segments of a path after an opening brace and part of a name, the latest character first. -/
def inside (name : List Char) : List Char → List PathSegment
  | [] => literal? ('\x7b' :: name.reverse)
  | c :: rest =>
    if c = '\x7d' then .param (String.ofList name.reverse) :: outside [] rest
    else inside (c :: name) rest

end

/-- The segments of a path. -/
def ofPath (path : String) : List PathSegment :=
  outside [] path.toList

end PathSegment

/-- A path with its segments. -/
structure PathTemplate where
  raw : String
  segments : List PathSegment
deriving DecidableEq, Repr

namespace PathTemplate

/-- The template of a path. -/
def parse (path : String) : PathTemplate :=
  ⟨path, PathSegment.ofPath path⟩

/-- The names of the placeholders, in order. -/
def paramNames (template : PathTemplate) : List String :=
  template.segments.filterMap fun segment =>
    match segment with
    | .param name => some name
    | .literal _ => none

end PathTemplate

end ClientGen
