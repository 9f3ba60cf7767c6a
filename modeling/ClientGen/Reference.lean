/-!
# References into a document

A reference is a text such as `#/components/schemas/Pet`: a JSON pointer after a number sign. Inside
a segment of a pointer `~` is written `~0` and `/` is written `~1`. A component has one reference of
its own (`componentKey`), and `componentName?` reads the name back from every reference to it.
-/

namespace ClientGen.Reference

/-- The segment with every `~` and `/` escaped, on characters. -/
def encodeChars (segment : List Char) : List Char :=
  segment.flatMap fun c => if c = '~' then ['~', '0'] else if c = '/' then ['~', '1'] else [c]

/-- The segment with every `~` and `/` escaped. -/
def encodeSegment (segment : String) : String :=
  String.ofList (encodeChars segment.toList)

/-- Every pair `~d`, from left to right, replaced by `c`. -/
def replacePair (d c : Char) : List Char → List Char
  | '~' :: x :: rest =>
    if x = d then c :: replacePair d c rest else '~' :: replacePair d c (x :: rest)
  | x :: rest => x :: replacePair d c rest
  | [] => []

/-- The segment with its escapes resolved, `~1` before `~0`, on characters. -/
def decodeChars (segment : List Char) : List Char :=
  replacePair '0' '~' (replacePair '1' '/' segment)

/-- The segment with its escapes resolved. -/
def decodeSegment (segment : String) : String :=
  String.ofList (decodeChars segment.toList)

/-- The reference to the child of `pointer` called `segment`. -/
def child (pointer segment : String) : String :=
  pointer ++ "/" ++ encodeSegment segment

/-- The text after `start`, if it begins with it. -/
def after? (start text : String) : Option String :=
  (start.toList.isPrefixOf? text.toList).map String.ofList

/-- What all references to components of one section begin with. -/
def sectionStart (area : String) : String :=
  "#/components/" ++ area ++ "/"

/-- The name, still escaped, in a reference to a component of a section: one segment, not empty. -/
def componentName? (area reference : String) : Option String :=
  (after? (sectionStart area) reference).filter fun name => name ≠ "" && !name.toList.contains '/'

/-- The reference to the component schema called `name`. -/
def componentKey (name : String) : String :=
  sectionStart "schemas" ++ encodeSegment name

/-- The characters after the last slash. -/
def lastSegmentChars (reference : List Char) : List Char :=
  (reference.reverse.takeWhile (· ≠ '/')).reverse

/-- The last segment of a reference with its escapes resolved. -/
def lastSegment (reference : String) : String :=
  decodeSegment (String.ofList (lastSegmentChars reference.toList))

end ClientGen.Reference
