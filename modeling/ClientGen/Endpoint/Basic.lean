import ClientGen.Descriptor.Table
import ClientGen.Diagnostic
import ClientGen.Endpoint.Media
import ClientGen.Endpoint.Path
import ClientGen.Method

/-!
# Endpoints

One operation of an API with all references to parameters, bodies and responses followed.
-/

namespace ClientGen

/-- Where a parameter goes. -/
inductive Location
  | path
  | query
  | header
  | cookie
  | body
deriving DecidableEq, Repr

namespace Location

/-- The word for a location. -/
def key : Location → String
  | .path => "path"
  | .query => "query"
  | .header => "header"
  | .cookie => "cookie"
  | .body => "body"

/-- The locations a document can give a parameter, in the order of a client. -/
def declarable : List Location := [.path, .query, .header, .cookie]

/-- The location a document gives a parameter. -/
def ofKey? (word : String) : Option Location :=
  declarable.find? fun location => location.key == word

end Location

/-- A parameter of an endpoint. -/
structure EndpointParameter where
  name : String
  location : Location
  type : Descriptor
  required : Bool

/-- An operation of an API. -/
structure Endpoint where
  method : Method
  path : PathTemplate
  /-- The identifier that stands for the endpoint in the client. -/
  name : String
  operationId : Option String
  requestFormat : RequestFormat
  parameters : List EndpointParameter
  /-- Statuses with their types; a status without a type has no content. -/
  responses : List (String × Option Descriptor)

namespace Endpoint

/-- The parameters at a location. -/
def parametersIn (endpoint : Endpoint) (location : Location) : List EndpointParameter :=
  endpoint.parameters.filter fun parameter => parameter.location == location

/-- Whether a status means success: three bytes, of which the first is the digit two. -/
def isSuccess (status : String) : Bool :=
  status.utf8ByteSize == 3 && Media.startsWith status "2"

/-- The type of the first success response, or else of the default response. -/
def primaryResponse (endpoint : Endpoint) : Option Descriptor :=
  match endpoint.responses.find? fun response => isSuccess response.1 with
  | some response => response.2
  | none => (endpoint.responses.lookup "default").bind id

end Endpoint

/-- Everything a client is generated from. -/
structure Api where
  endpoints : List Endpoint
  types : Table
  diagnostics : List Diagnostic

end ClientGen
