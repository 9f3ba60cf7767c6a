import ClientGen.Endpoint.Basic
import ClientGen.Validator.Library

/-!
# Declarations of endpoints

Every endpoint becomes a type in the namespace `Endpoints` and, with a validator library, a constant
with the validators of its parts. `EndpointByMethod` lists the endpoints by method and path, as a
type and as a value.
-/

namespace ClientGen.Client

open Script Validator

/-- The namespace of the types of endpoints. -/
def endpointsNamespace : String := "Endpoints"

/-- The table of all endpoints. -/
def endpointByMethod : String := "EndpointByMethod"

/-! ### Parameters -/

/-- Properties with one more, in the place of one with its name if there is any. -/
def putProperty (properties : List (Property Descriptor)) (new : Property Descriptor) :
    List (Property Descriptor) :=
  match properties with
  | [] => [new]
  | property :: rest =>
    if property.name = new.name then new :: rest else property :: putProperty rest new

/-- The parameters at one location as the properties of an object, if there are any. -/
def parameterGroup (endpoint : Endpoint) (location : Location) : List (Property Descriptor) :=
  let properties := (endpoint.parametersIn location).foldl
    (fun properties parameter =>
      putProperty properties ⟨parameter.name, parameter.type, parameter.required⟩) []
  if properties.isEmpty then []
  else [⟨location.key, .object properties none, properties.any (·.required)⟩]

/-- The body as a property, if there is one. -/
def bodyGroup (endpoint : Endpoint) : List (Property Descriptor) :=
  match endpoint.parametersIn .body with
  | [] => []
  | body :: _ => [⟨Location.body.key, body.type, body.required⟩]

/-- The parameters of an endpoint by location, if it takes any. -/
def parametersType? (endpoint : Endpoint) : Option Descriptor :=
  match Location.declarable.flatMap (parameterGroup endpoint) ++ bodyGroup endpoint with
  | [] => none
  | groups => some (.object groups none)

/-! ### Types -/

/-- A property that is always there. -/
def property (name : String) (type : TypeExpr) : Member TypeExpr :=
  ⟨name, type, false⟩

/-- The type of one text. -/
def textType (value : String) : TypeExpr :=
  .literal (.string value)

/-- The type of an endpoint. -/
def endpointType (endpoint : Endpoint) : TypeAlias where
  name := endpoint.name
  type := .object [
    property "method" (textType endpoint.method.name),
    property "path" (textType endpoint.path.raw),
    property "requestFormat" (textType endpoint.requestFormat.name),
    property "parameters"
      (match parametersType? endpoint with
      | some type => .ofDescriptor type
      | none => .keyword .never),
    property "response" (.ofDescriptor? endpoint.primaryResponse),
    property "responses" (.object (endpoint.responses.map fun (status, type) =>
      property status (.ofDescriptor? type)))]

/-- The types of all endpoints. -/
def endpointTypes (endpoints : List Endpoint) : Item :=
  .typeNamespace endpointsNamespace (endpoints.map endpointType)

/-! ### Validators -/

/-- The validator of a type on its own. A reference is one by itself, because what it names is
declared as one. -/
def standaloneValidator (library : Library) : Option Descriptor → Expr
  | some type =>
    let validator := library.render .endpoint type
    if type.isReference then validator else library.standalone validator
  | none => library.standalone library.unknown

/-- The validator of one text. -/
def textValidator (library : Library) (value : String) : Expr :=
  library.standalone (library.literal (.string value))

/-- The validators of an endpoint. -/
def endpointValidator (library : Library) (endpoint : Endpoint) : Item :=
  .constant endpoint.name none (.block 0 [
    ("method", textValidator library endpoint.method.name),
    ("path", textValidator library endpoint.path.raw),
    ("requestFormat", textValidator library endpoint.requestFormat.name),
    ("parameters",
      match parametersType? endpoint with
      | some type => standaloneValidator library (some type)
      | none => library.standalone library.never),
    ("response", standaloneValidator library endpoint.primaryResponse),
    ("responses", .object (endpoint.responses.map fun (status, type) =>
      (Quoted.key status, standaloneValidator library type)))])

/-! ### The table of endpoints -/

/-- The methods that endpoints have, in the order of all methods. -/
def methodsPresent (endpoints : List Endpoint) : List Method :=
  Method.all.filter fun method => endpoints.any fun endpoint => endpoint.method == method

/-- The endpoints with a method. -/
def withMethod (endpoints : List Endpoint) (method : Method) : List Endpoint :=
  endpoints.filter fun endpoint => endpoint.method == method

/-- The table of endpoints as a type. -/
def tableType (endpoints : List Endpoint) : Item :=
  .typeAlias ⟨endpointByMethod, .object ((methodsPresent endpoints).map fun method =>
    property method.key (.object ((withMethod endpoints method).map fun endpoint =>
      property endpoint.path.raw (.named (endpointsNamespace ++ "." ++ endpoint.name)))))⟩

/-- The table of endpoints as a value. -/
def tableValue (endpoints : List Endpoint) : Item :=
  .constant endpointByMethod none (.block 0 ((methodsPresent endpoints).map fun method =>
    (method.key, .block 1 ((withMethod endpoints method).map fun endpoint =>
      (Quoted.key endpoint.path.raw, .name endpoint.name)))))

end ClientGen.Client
