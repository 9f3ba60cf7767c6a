import ClientGen.Json.Parser
import ClientGen.OpenApi.Document
import ClientGen.Text.Blank
import ClientGen.Yaml.Composition

/-!
# The text of a document

A document is written as JSON if its first character that is not blank is an opening brace, and as
YAML otherwise.
-/

namespace ClientGen.OpenApi

/-- Why a text is no document. -/
inductive DocumentError
  /-- The text does not follow the grammar of its format. -/
  | malformed
  /-- A mapping has a key that is no name. -/
  | unsupportedKey (key : Yaml.Value)
  /-- The value has no typed form. -/
  | unfit (error : Json.DecodeError)

/-- What is wrong with a text, in words. -/
def DocumentError.message : DocumentError → String
  | .malformed => "malformed text"
  | .unsupportedKey key => "unsupported mapping key: " ++ key.shown
  | .unfit error => error.message

/-- Whether a text is written as JSON. -/
def isJsonText (text : String) : Bool :=
  (Text.trimStart text.toList).head? == some '\x7b'

/-- The value that a text is written for. -/
def readText (text : String) : Except DocumentError Json :=
  if isJsonText text then
    match Json.parse? text with
    | some json => .ok json
    | none => .error .malformed
  else
    match Yaml.Value.ofText? text with
    | some value => value.toJson.mapError .unsupportedKey
    | none => .error .malformed

/-- The document that a text is written for. -/
def Document.ofText (text : String) : Except DocumentError Document := do
  let json ← readText text
  (Document.ofJson json).mapError .unfit

end ClientGen.OpenApi
