import ClientGen.Json.Decode

/-!
# Schemas of a document

The part of a schema object that has a meaning for types. A keyword that is absent or `null` is
`none`.
-/

namespace ClientGen.OpenApi

open ClientGen.Json

/-- What a `type` keyword says: one type, or a list of them. -/
inductive TypeKeyword
  | one (name : String)
  | many (names : List String)
deriving Repr

/-- What `additionalProperties` says. -/
inductive Additional (σ : Type)
  | allowed (value : Bool)
  | schema (value : σ)
deriving Repr

/-- A schema object. -/
structure Schema where
  type : Option TypeKeyword := none
  ref : Option String := none
  properties : Option (List (String × Schema)) := none
  required : Option (List String) := none
  items : Option Schema := none
  enumeration : Option (List Json) := none
  anyOf : Option (List Schema) := none
  oneOf : Option (List Schema) := none
  allOf : Option (List Schema) := none
  additional : Option (Additional Schema) := none
  format : Option String := none
  const : Option Json := none
  nullable : Option Bool := none
  not : Option Json := none

instance : Inhabited Schema := ⟨{}⟩

/-- A `type` keyword. -/
def readTypeKeyword : Decoder TypeKeyword := fun json =>
  match readString json, readList readString json with
  | .ok name, _ => .ok (.one name)
  | _, .ok names => .ok (.many names)
  | _, _ => .error (.noAlternative "SchemaType")

/-- The value of `additionalProperties`, given how a schema is read. -/
def readAdditional (schema : Decoder Schema) : Decoder (Additional Schema) := fun json =>
  match readBool json with
  | .ok value => .ok (.allowed value)
  | .error _ =>
    match schema json with
    | .ok value => .ok (.schema value)
    | .error _ => .error (.noAlternative "AdditionalProperties")

namespace Schema

/-- The keywords of a schema, given how the schemas inside it are read. -/
def fields (schema : Decoder Schema) : List (RecordField Schema) := [
  .of "type" .optional (readNullable readTypeKeyword) fun s v => { s with type := v },
  .of "$ref" .optional (readNullable readString) fun s v => { s with ref := v },
  .of "properties" .optional (readNullable (readMap schema)) fun s v => { s with properties := v },
  .of "required" .optional (readNullable (readList readString)) fun s v => { s with required := v },
  .of "items" .optional (readNullable schema) fun s v => { s with items := v },
  .of "enum" .optional (readNullable (readList readAny)) fun s v => { s with enumeration := v },
  .of "anyOf" .optional (readNullable (readList schema)) fun s v => { s with anyOf := v },
  .of "oneOf" .optional (readNullable (readList schema)) fun s v => { s with oneOf := v },
  .of "allOf" .optional (readNullable (readList schema)) fun s v => { s with allOf := v },
  .of "additionalProperties" .optional (readNullable (readAdditional schema))
    fun s v => { s with additional := v },
  .of "format" .optional (readNullable readString) fun s v => { s with format := v },
  .of "const" .optional (readNullable readAny) fun s v => { s with const := v },
  .of "nullable" .optional (readNullable readBool) fun s v => { s with nullable := v },
  .of "not" .optional (readNullable readAny) fun s v => { s with not := v }]

/-- A schema in a value that is nested at most `depth` deep. -/
def readWithin : Nat → Decoder Schema
  | 0 => fun json => .error (.wrongShape json (.record "Schema"))
  | depth + 1 => readRecord "Schema" (fields (readWithin depth)) {}

/-- A schema. -/
def read : Decoder Schema := fun json => readWithin json.depth json

end Schema

end ClientGen.OpenApi
