import ClientGen.Endpoint.Basic
import ClientGen.Mapping.Schema

/-!
# Endpoints of a document

Every operation of a document becomes an endpoint, in document order. Parameters of the path and of
the operation are merged, bodies and responses are read in their preferred media type, and a
complex type that is written in place becomes an entry of the table under the reference to its
place, so that all operations that denote one body or response share the entry.
-/

namespace ClientGen

open OpenApi Mapping

/-! ### Sites -/

/-- Where an operation stands in a document. -/
structure Site where
  path : String
  pathPointer : String
  method : Method
  pointer : String
  /-- Parameters of all operations on the path. -/
  shared : List (Referable Parameter)
  operation : Operation

namespace Site

/-- The operations of a document. -/
def all (doc : Document) : List Site :=
  doc.paths.flatMap fun (path, item) =>
    let pathPointer := Reference.child "#/paths" path
    item.operations.map fun (method, operation) =>
      let pointer := Reference.child pathPointer method.key
      ⟨path, pathPointer, method, pointer, item.parameters, operation⟩

/-- The name to try first for the operation, from its method and its identifier or path. -/
def proposedName (site : Site) : String :=
  Identifier.endpointName site.method.key (site.operation.operationId.getD site.path)

/-- Operations with distinct names, an earlier operation first. -/
def withNames (names : Registry) : List Site → List (Site × String)
  | [] => []
  | site :: more =>
    let (name, names) := names.resolveAs site.pointer site.proposedName
    (site, name) :: withNames names more

/-- What the names of types are made from that an operation declares. -/
def typeBase (site : Site) (name : String) : String :=
  let ofName := Identifier.pascalCase name
  match site.operation.operationId with
  | some id => let name := Identifier.pascalCase id; if name = "" then ofName else name
  | none => ofName

/-- Parameters with references to their places below `pointer`. -/
def placed (pointer : String) (parameters : List (Referable Parameter)) :
    List (Referable Parameter × String) :=
  parameters.zipIdx.map fun (parameter, i) =>
    (parameter, Reference.child (Reference.child pointer "parameters") (toString i))

/-- The parameters of the path and then those of the operation. -/
def declared (site : Site) : List (Referable Parameter × String) :=
  placed site.pathPointer site.shared ++ placed site.pointer site.operation.parameters

end Site

/-! ### References to components -/

/-- Component parameters. -/
def OpenApi.Document.parameters (doc : Document) : List (String × Parameter) :=
  (doc.components.map (·.parameters)).getD []

/-- Component request bodies. -/
def OpenApi.Document.requestBodies (doc : Document) : List (String × RequestBody) :=
  (doc.components.map (·.requestBodies)).getD []

/-- Component responses. -/
def OpenApi.Document.responses (doc : Document) : List (String × Response) :=
  (doc.components.map (·.responses)).getD []

/-- What is written in place or named by a reference: a component of the section `area`, one of
`components`, or what `reader` reads anywhere else in the document. -/
def OpenApi.Document.resolve? {α : Type} (doc : Document) (area : String)
    (components : List (String × α)) (reader : Json.Decoder α) : Referable α → Option α
  | .item value => some value
  | .reference path =>
    match Reference.componentName? area path with
    | some name => components.lookup (Reference.decodeSegment name)
    | none => doc.lookup? reader path

namespace Mapping

/-! ### Parameters -/

/-- Parameters with one more, which replaces the one with its name and location. -/
def mergeParameter (merged : List (Parameter × String)) (new : Parameter × String) :
    List (Parameter × String) :=
  (merged.filter fun old => old.1.name ≠ new.1.name || old.1.location ≠ new.1.location) ++ [new]

/-- The parameters that declarations leave; one that cannot be resolved is recorded. -/
def mergeParameters (doc : Document) :
    List (Parameter × String) → List (Referable Parameter × String) →
      MapM (List (Parameter × String))
  | merged, [] => return merged
  | merged, (parameter, pointer) :: more =>
    match doc.resolve? "parameters" doc.parameters Parameter.read parameter with
    | some value => mergeParameters doc (mergeParameter merged (value, pointer)) more
    | none => do
      report pointer .unresolvedParameter
      mergeParameters doc merged more

/-- The first media type with a schema. -/
def firstSchema? : List (String × MediaType) → Option (String × Schema)
  | [] => none
  | (media, value) :: more =>
    match value.schema with
    | some schema => some (media, schema)
    | none => firstSchema? more

/-- The reference to the schema of a media type below `pointer`. -/
def contentSchema (pointer media : String) : String :=
  Reference.child (Reference.child (Reference.child pointer "content") media) "schema"

/-- The type of a parameter: that of its schema, or of its first media type with one, or text. -/
def parameterType (doc : Document) (parameter : Parameter) (pointer : String) : MapM Descriptor :=
  match parameter.schema with
  | some schema => mapSchema doc schema (Reference.child pointer "schema")
  | none =>
    match firstSchema? (parameter.content.getD []) with
    | some (media, schema) => mapSchema doc schema (contentSchema pointer media)
    | none => return .scalar .string

/-- Endpoint parameters of merged ones; one with another location is recorded. A parameter in the
path is always required. -/
def mapParameters (doc : Document) : List (Parameter × String) → MapM (List EndpointParameter)
  | [] => return []
  | (parameter, pointer) :: more =>
    match Location.ofKey? parameter.location with
    | some location => do
      let type ← parameterType doc parameter pointer
      let parameters ← mapParameters doc more
      return ⟨parameter.name, location, type, parameter.required || location == .path⟩ :: parameters
    | none => do
      report pointer (.unsupportedLocation parameter.location)
      mapParameters doc more

/-- Whether there is a parameter for a placeholder of the path. -/
def declaresPath (parameters : List EndpointParameter) (name : String) : Bool :=
  parameters.any fun parameter => parameter.location == .path && parameter.name == name

/-- Parameters with one of type text for each placeholder that has none, which is recorded. -/
def completePath (pointer : String) :
    List EndpointParameter → List String → MapM (List EndpointParameter)
  | parameters, [] => return parameters
  | parameters, name :: more =>
    if declaresPath parameters name then completePath pointer parameters more
    else do
      report pointer (.undeclaredPathParameter name)
      completePath pointer (parameters ++ [⟨name, .path, .scalar .string, true⟩]) more

/-- All parameters of an operation but its body. -/
def siteParameters (doc : Document) (site : Site) : MapM (List EndpointParameter) := do
  let merged ← mergeParameters doc [] site.declared
  let parameters ← mapParameters doc merged
  completePath site.pointer parameters (PathTemplate.parse site.path).paramNames

/-! ### Bodies and responses -/

/-- The type of a schema at `key`, as an entry of the table if it is complex. -/
def mapHoisted (doc : Document) (schema : Schema) (key base : String) : MapM Descriptor := do
  match (← get).hoisted? key with
  | some reference => return reference
  | none => do
    let type ← mapSchema doc schema key
    if type.isComplex then hoist key base type else return type

/-- Where a body or response is declared and what its type is called. A referenced one has the place
of the reference, and a component also lends its name. -/
def hoistSite {α : Type} (area : String) (pointer base : String) : Referable α → String × String
  | .item _ => (pointer, base)
  | .reference path =>
    match Reference.componentName? area path with
    | some name => (path, Identifier.pascalCase (Reference.decodeSegment name))
    | none => (path, base)

/-- The body of an operation with its format, if it can be resolved. -/
def mapBody (doc : Document) (body : Referable RequestBody) (pointer base : String) :
    MapM (Option (RequestFormat × EndpointParameter)) := do
  match doc.resolve? "requestBodies" doc.requestBodies RequestBody.read body with
  | none => return none
  | some resolved =>
    let (place, name) := hoistSite "requestBodies" pointer (base ++ "Body") body
    let (format, type) ← match Media.pick? resolved.content with
      | none => pure (RequestFormat.json, .unknown)
      | some (media, value) => do
        let type ← match value.schema with
          | some schema => mapHoisted doc schema (contentSchema place media) name
          | none => pure .unknown
        pure (Media.requestFormat (Media.essence media), type)
    return some (format, ⟨"body", .body, type, resolved.required⟩)

/-- The type of a response, if it has content; one that cannot be resolved is recorded. -/
def mapResponse (doc : Document) (response : Referable Response) (pointer base status : String) :
    MapM (Option Descriptor) := do
  match doc.resolve? "responses" doc.responses Response.read response with
  | none => do
    report pointer .unresolvedResponse
    return none
  | some resolved =>
    let own := base ++ "Response" ++ Identifier.pascalCase status
    let (place, name) := hoistSite "responses" pointer own response
    match Media.pick? resolved.content with
    | some (media, ⟨some schema⟩) =>
      some <$> mapHoisted doc schema (contentSchema place media) name
    | _ => return none

/-- The format of the body of an operation, and the body as a parameter. -/
def siteBody (doc : Document) (site : Site) (base : String) :
    MapM (RequestFormat × List EndpointParameter) :=
  match site.operation.requestBody with
  | none => return (.json, [])
  | some body => do
    let pointer := Reference.child site.pointer "requestBody"
    match ← mapBody doc body pointer base with
    | some (format, parameter) => return (format, [parameter])
    | none => do
      report pointer .unresolvedBody
      return (.json, [])

/-- The responses of an operation. -/
def siteResponses (doc : Document) (site : Site) (base : String) :
    MapM (List (String × Option Descriptor)) :=
  site.operation.responses.mapM fun (status, response) => do
    let pointer := Reference.child (Reference.child site.pointer "responses") status
    let type ← mapResponse doc response pointer base status
    return (status, type)

/-! ### Documents -/

/-- The endpoint of an operation. -/
def mapSite (doc : Document) (site : Site) (name : String) : MapM Endpoint := do
  let base := site.typeBase name
  let parameters ← siteParameters doc site
  let (format, body) ← siteBody doc site base
  let responses ← siteResponses doc site base
  return {
    method := site.method
    path := PathTemplate.parse site.path
    name := name
    operationId := site.operation.operationId
    requestFormat := format
    parameters := parameters ++ body
    responses := responses }

/-- Maps all component schemas and then all operations. -/
def mapEndpoints (doc : Document) : MapM (List Endpoint) := do
  mapComponents doc
  (Site.withNames {} (Site.all doc)).mapM fun (site, name) => mapSite doc site name

end Mapping

/-- Everything a client of a document is generated from. -/
def OpenApi.Document.toApi (doc : Document) : Api :=
  let (endpoints, state) := (mapEndpoints doc).run (.start doc)
  let (types, diagnostics) := state.finish
  ⟨endpoints, types, diagnostics⟩

end ClientGen
