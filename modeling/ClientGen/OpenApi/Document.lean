import ClientGen.Json.Pointer
import ClientGen.Method
import ClientGen.OpenApi.Schema

/-!
# API documents

The part of an API document that has a meaning for a client, with all maps in document order, and
the whole document beside it for references that lead anywhere else.
-/

namespace ClientGen.OpenApi

open ClientGen.Json

/-! ### Parts -/

/-- An object written in place, or a reference to one. -/
inductive Referable (α : Type)
  | reference (path : String)
  | item (value : α)

/-- What is sent in one format. -/
structure MediaType where
  schema : Option Schema := none

/-- A parameter of an operation. -/
structure Parameter where
  name : String := ""
  location : String := ""
  required : Bool := false
  schema : Option Schema := none
  content : Option (List (String × MediaType)) := none

/-- The body of a request. -/
structure RequestBody where
  required : Bool := false
  content : List (String × MediaType) := []

/-- A response. -/
structure Response where
  description : Option String := none
  content : List (String × MediaType) := []

/-- An operation of the API. -/
structure Operation where
  operationId : Option String := none
  summary : Option String := none
  parameters : List (Referable Parameter) := []
  requestBody : Option (Referable RequestBody) := none
  responses : List (String × Referable Response) := []

/-- The operations on one path, and the parameters they share. -/
structure PathItem where
  operations : List (Method × Operation) := []
  parameters : List (Referable Parameter) := []

/-- Objects that references name. -/
structure Components where
  schemas : List (String × Schema) := []
  parameters : List (String × Parameter) := []
  requestBodies : List (String × RequestBody) := []
  responses : List (String × Response) := []

/-- An API document. -/
structure Document where
  openapi : Option String := none
  paths : List (String × PathItem) := []
  components : Option Components := none
  /-- The whole document. -/
  raw : Json := .null

/-! ### Reading the parts -/

/-- The path of a value that is a reference: an object with a text under `$ref`. -/
def refPath? : Json → Option String
  | .object members =>
    match members.lookup "$ref" with
    | some (.string path) => some path
    | _ => none
  | _ => none

/-- A reference, or what `item` reads. -/
def readReferable {α : Type} (item : Decoder α) : Decoder (Referable α) := fun json =>
  match refPath? json with
  | some path => .ok (.reference path)
  | none =>
    match item json with
    | .ok value => .ok (.item value)
    | .error _ => .error (.noAlternative "RefOr")

def MediaType.fields : List (RecordField MediaType) := [
  .of "schema" .optional (readNullable Schema.read) fun s v => { s with schema := v }]

/-- What is sent in one format. -/
def MediaType.read : Decoder MediaType := readRecord "MediaType" fields {}

def Parameter.fields : List (RecordField Parameter) := [
  .of "name" .required readString fun s v => { s with name := v },
  .of "in" .required readString fun s v => { s with location := v },
  .of "required" .defaulted readBool fun s v => { s with required := v },
  .of "schema" .optional (readNullable Schema.read) fun s v => { s with schema := v },
  .of "content" .optional (readNullable (readMap MediaType.read))
    fun s v => { s with content := v }]

/-- A parameter. -/
def Parameter.read : Decoder Parameter := readRecord "Parameter" fields {}

def RequestBody.fields : List (RecordField RequestBody) := [
  .of "required" .defaulted readBool fun s v => { s with required := v },
  .of "content" .defaulted (readMap MediaType.read) fun s v => { s with content := v }]

/-- The body of a request. -/
def RequestBody.read : Decoder RequestBody := readRecord "RequestBody" fields {}

def Response.fields : List (RecordField Response) := [
  .of "description" .optional (readNullable readString) fun s v => { s with description := v },
  .of "content" .defaulted (readMap MediaType.read) fun s v => { s with content := v }]

/-- A response. -/
def Response.read : Decoder Response := readRecord "Response" fields {}

def Operation.fields : List (RecordField Operation) := [
  .of "operationId" .optional (readNullable readString) fun s v => { s with operationId := v },
  .of "summary" .optional (readNullable readString) fun s v => { s with summary := v },
  .of "parameters" .defaulted (readList (readReferable Parameter.read))
    fun s v => { s with parameters := v },
  .of "requestBody" .optional (readNullable (readReferable RequestBody.read))
    fun s v => { s with requestBody := v },
  .of "responses" .defaulted (readMap (readReferable Response.read))
    fun s v => { s with responses := v }]

/-- An operation. -/
def Operation.read : Decoder Operation := readRecord "Operation" fields {}

/-- The path item with one more member read: shared parameters, an operation, or nothing known. -/
def PathItem.fill (item : PathItem) (member : String × Json) : Except DecodeError PathItem :=
  if member.1 = "parameters" then
    (readList (readReferable Parameter.read) member.2).map fun v => { item with parameters := v }
  else
    match Method.ofKey? member.1 with
    | some method =>
      (Operation.read member.2).map fun v =>
        { item with operations := item.operations ++ [(method, v)] }
    | none => .ok item

/-- The operations on one path. -/
def PathItem.read : Decoder PathItem
  | .object members => members.foldlM fill {}
  | found => .error (.wrongShape found .map)

def Components.fields : List (RecordField Components) := [
  .of "schemas" .defaulted (readMap Schema.read) fun s v => { s with schemas := v },
  .of "parameters" .defaulted (readMap Parameter.read) fun s v => { s with parameters := v },
  .of "requestBodies" .defaulted (readMap RequestBody.read)
    fun s v => { s with requestBodies := v },
  .of "responses" .defaulted (readMap Response.read) fun s v => { s with responses := v }]

/-- Objects that references name. -/
def Components.read : Decoder Components := readRecord "Components" fields {}

def Document.fields : List (RecordField Document) := [
  .of "openapi" .defaulted (readNullable readString) fun s v => { s with openapi := v },
  .of "paths" .defaulted (readMap PathItem.read) fun s v => { s with paths := v },
  .of "components" .optional (readNullable Components.read) fun s v => { s with components := v }]

/-- A document, with its value beside it. -/
def Document.ofJson (json : Json) : Except DecodeError Document :=
  (readRecord "OpenApiSpec" Document.fields {} json).map fun doc => { doc with raw := json }

/-! ### Finding parts -/

namespace Document

/-- The component schemas, in order. -/
def schemas (doc : Document) : List (String × Schema) :=
  match doc.components with
  | some components => components.schemas
  | none => []

/-- The component schema with a name. -/
def schema? (doc : Document) (name : String) : Option Schema :=
  doc.schemas.lookup name

/-- The value a reference names, if the reference stays inside the document. -/
def value? (doc : Document) (reference : String) : Option Json :=
  (Reference.after? "#" reference).bind doc.raw.at?

/-- What a reference names, if it is there and `reader` can read it. -/
def lookup? {α : Type} (doc : Document) (reader : Decoder α) (reference : String) : Option α :=
  (doc.value? reference).bind fun json => (reader json).toOption

end Document

end ClientGen.OpenApi
