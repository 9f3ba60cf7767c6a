import ClientGen.Client.Module
import ClientGen.Generation.Error
import ClientGen.Mapping.Endpoint

/-!
# Generation

From the text of a document to the text of a client.
-/

namespace ClientGen

/-- The text of a client of an API, unless it has a dangling reference. -/
def Api.generate (api : Api) (target : Target) : Except GenerationError String :=
  match api.checkedModule target with
  | .ok module => .ok module.text
  | .error key => .error (.danglingReference key)

/-- The text of a client of the API that a text describes. -/
def generate (text : String) (target : Target) : Except GenerationError String := do
  let doc ← (OpenApi.Document.ofText text).mapError .document
  doc.toApi.generate target

end ClientGen
