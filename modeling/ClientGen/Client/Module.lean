import ClientGen.Client.Fetcher
import ClientGen.Target

/-!
# The generated module

All declarations of a client in their fixed order: types of schemas, their validators, types and
validators of endpoints, the table of endpoints, and the client itself. A module is made only if
every reference in the types has an entry (`checkedModule`).
-/

namespace ClientGen

open Script

namespace Client

/-- The types of schemas. -/
def schemaTypes (types : Table) : Item :=
  .typeNamespace schemasNamespace (types.entries.map fun entry =>
    ⟨entry.name, .ofDescriptor entry.type⟩)

/-- The validator of an entry, to be declared. -/
def schemaDeclaration (library : Validator.Library) (entry : Entry) : Validator.Declaration :=
  ⟨entry.name, library.render .declaration entry.type, entry.recursive⟩

/-- Declarations between marks, unless there are none. -/
def marked (mark : String) (items : List Item) : List Item :=
  if items.isEmpty then []
  else .verbatim ("// <" ++ mark ++ ">") :: (items ++ [.verbatim ("// </" ++ mark ++ ">")])

/-- The validators of schemas. -/
def schemaValidators (library : Validator.Library) (types : Table) : List Item :=
  marked "Validators" (library.declarations (types.entries.map (schemaDeclaration library)))

/-- The table of endpoints, which is a value too if the client comes with validators. -/
def table (endpoints : List Endpoint) (withValue : Bool) : List Item :=
  marked "EndpointByMethod"
    (tableType endpoints :: if withValue then [tableValue endpoints] else [])

end Client

namespace Api

/-- The module of a client. -/
def toModule (api : Api) (target : Target) : Module :=
  let endpoints := api.endpoints
  let validators := fun (make : Validator.Library → List Item) =>
    match target.library? with
    | some library => make library
    | none => []
  { imports := match target.library? with
      | some library => [library.imports]
      | none => []
    items :=
      [Client.schemaTypes api.types]
        ++ validators (Client.schemaValidators · api.types)
        ++ [Client.endpointTypes endpoints]
        ++ validators (fun library => endpoints.map (Client.endpointValidator library))
        ++ Client.table endpoints target.library?.isSome
        ++ Client.shorthandTypes endpoints
        ++ [Client.clientTypes, Client.clientClass endpoints] }

/-- The types of an endpoint. -/
def endpointTypes (endpoint : Endpoint) : List Descriptor :=
  endpoint.parameters.map (·.type) ++ endpoint.responses.filterMap Prod.snd

/-- All references of an API: those of the table and then those of the endpoints. -/
def references (api : Api) : List (String × String) :=
  api.types.entries.flatMap (·.type.references)
    ++ api.endpoints.flatMap fun endpoint =>
      (endpointTypes endpoint).flatMap Descriptor.references

/-- The key of the first reference without an entry. -/
def danglingKey? (api : Api) : Option String :=
  (api.references.map Prod.fst).find? fun key => !api.types.contains key

/-- The module of a client, or the key of a reference without an entry. -/
def checkedModule (api : Api) (target : Target) : Except String Module :=
  match api.danglingKey? with
  | some key => .error key
  | none => .ok (api.toModule target)

end Api

end ClientGen
