/-!
# Quoted text in scripts

String literals between double quotes as a script writes them. Five characters are escaped (the
backslash, the double quote, line feed, carriage return and tab) and every other one stands for
itself. A name is a property key as it is when it has the shape of an ASCII identifier, and
quoted otherwise.
-/

namespace ClientGen.Quoted

/-- One character inside a literal. -/
def escapeChar : Char → List Char
  | '\\' => ['\\', '\\']
  | '"' => ['\\', '"']
  | '\n' => ['\\', 'n']
  | '\r' => ['\\', 'r']
  | '\t' => ['\\', 't']
  | c => [c]

/-- The text between the quotes of a literal, on characters. -/
def escapeChars (text : List Char) : List Char :=
  text.flatMap escapeChar

/-- The text between the quotes of the literal of `text`. -/
def escape (text : String) : String :=
  String.ofList (escapeChars text.toList)

/-- The string literal of `text`. -/
def quote (text : String) : String :=
  "\"" ++ escape text ++ "\""

/-- A character that may begin an unquoted key. -/
def isKeyStart (c : Char) : Bool :=
  c.isAlpha || c == '_' || c == '$'

/-- A character that may stand inside an unquoted key. -/
def isKeyPart (c : Char) : Bool :=
  c.isAlphanum || c == '_' || c == '$'

/-- Whether a name has to be quoted as a property key. -/
def needsQuotes (name : String) : Bool :=
  match name.toList with
  | [] => true
  | c :: rest => !(isKeyStart c && rest.all isKeyPart)

/-- The name as a property key. -/
def key (name : String) : String :=
  if needsQuotes name then quote name else name

/-- The key, written already, with a question mark at the end of the name. An unquoted key gets
quotes. -/
def optionalKey (written : String) : String :=
  match written.toList with
  | '"' :: rest =>
    if rest.getLast? = some '"' then String.ofList ('"' :: (rest.dropLast ++ ['?', '"']))
    else quote (written ++ "?")
  | _ => quote (written ++ "?")

end ClientGen.Quoted
