/-!
# Identifiers

Names for the declarations of a script, made from arbitrary text. The letters and digits of ASCII
are kept, and every run of them starts with a capital (`pascalCase`); what is left is put in front
of a digit or a reserved word to keep the result an identifier (`typeName`), or follows the
method of an operation (`endpointName`).
-/

namespace ClientGen.Identifier

/-- Words that a declaration may not be called: keywords, and the built-in types it would hide. -/
def reservedWords : List String := [
  "break", "case", "catch", "class", "const", "continue", "debugger", "default", "delete", "do",
  "else", "enum", "export", "extends", "false", "finally", "for", "function", "if", "import", "in",
  "instanceof", "new", "null", "return", "super", "switch", "this", "throw", "true", "try",
  "typeof", "var", "void", "while", "with", "yield", "let", "static", "implements", "interface",
  "package", "private", "protected", "public", "await", "async",
  "any", "unknown", "never", "object", "string", "number", "boolean", "symbol", "Array", "Record",
  "Promise", "Date", "Blob", "Object", "String", "Number", "Boolean"]

/-- The letters and digits of a text; the first of each run is a capital, where `start` says
whether the text begins a run. -/
def pascalChars (start : Bool) : List Char → List Char
  | [] => []
  | c :: rest =>
    if c.isAlphanum then (if start then c.toUpper else c) :: pascalChars false rest
    else pascalChars true rest

/-- The words of a text, which are its runs of letters and digits, each with a capital. -/
def pascalCase (text : String) : String :=
  String.ofList (pascalChars true text.toList)

/-- An underscore in front of a digit. -/
def guardDigit (name : String) : String :=
  match name.toList with
  | c :: _ => if c.isDigit then "_" ++ name else name
  | [] => name

/-- An underscore in front of a reserved word. -/
def guardReserved (name : String) : String :=
  if name ∈ reservedWords then "_" ++ name else name

/-- The identifier of a type called `name`; a name with nothing usable in it gives `_empty`. -/
def typeName (name : String) : String :=
  let pascal := pascalCase name
  if pascal = "" then "_empty" else guardReserved (guardDigit pascal)

/-- The identifier of an operation: its method and what it is called, `Root` if that has nothing
usable in it. -/
def endpointName (method name : String) : String :=
  let pascal := pascalCase name
  method ++ "_" ++ (if pascal = "" then "Root" else pascal)

end ClientGen.Identifier
