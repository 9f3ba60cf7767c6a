import ClientGen.Validator.Library

/-!
# ArkType

Definitions of the ArkType library. All schemas are members of one scope, inside of which the name
of each is a definition. A definition is plain data (`"string"`, `[a, "|", b]`, `["===", 1]`), which
becomes a validator by itself only where it is wrapped. The key of an optional property ends in a
question mark.
-/

namespace ClientGen.Validator.Arktype

open Script

/-- The constant that holds all schemas. -/
def moduleName : String := "__Schemas"

/-- The definition that a format adds to a text. -/
def formatCheck? (format : String) : Option String :=
  if format = "date-time" then some "string.date.iso"
  else if format = "email" then some "string.email"
  else if format = "uuid" then some "string.uuid"
  else if format = "uri" ∨ format = "url" then some "string.url"
  else none

/-- A scalar type. -/
def primitive : PrimitiveKind → Option String → Expr
  | .string, format => .string ((format.bind formatCheck?).getD "string")
  | .number, _ => .string "number"
  | .integer, _ => .string "number.integer"
  | .boolean, _ => .string "boolean"
  | .null, _ => .string "null"

/-- The key for all properties that are not declared. -/
def restKey : String := "\"[string]\""

/-- A property with its key. -/
def property (field : Field) : String × Expr :=
  (if field.required then field.key else Quoted.optionalKey field.key, field.validator)

/-- An object. -/
def object (fields : List Field) (rest : Option Expr) : Expr :=
  .object (fields.map property ++
    (match rest with
    | some value => [(restKey, value)]
    | none => []))

/-- A literal. -/
def literal : Literal → Expr
  | .null => .string "null"
  | value => .array [.string "===", .literal value]

/-- Definitions combined by an operator, two at a time from the left. -/
def fold (operator : String) : List Expr → Expr
  | [] => .string "unknown"
  | first :: rest =>
    rest.foldl (fun members next => .array [members, .string operator, next]) first

/-- A reference, by name inside the scope. -/
def reference : Scope → String → Expr
  | .declaration, name => .string name
  | .endpoint, name => .name name

/-- The scope with all schemas, and each taken out of it. -/
def declarations : List Declaration → List Item
  | [] => []
  | all =>
    .localConstant moduleName
        (((Expr.name "scope").call
            [.block 0 (all.map fun schema => (schema.name, schema.validator))]).invoke "export" [])
      :: all.map fun schema =>
        .constant schema.name none ((Expr.name moduleName).member schema.name)

/-- How the library writes validators. -/
def library : Library where
  imports := .names ["scope", "type"] "arktype"
  primitive := primitive
  array item := .array [item, .string "[]"]
  object := object
  record value := .object [(restKey, value)]
  literal := literal
  union := fold "|"
  intersection := fold "&"
  reference := reference
  unknown := .string "unknown"
  never := .string "never"
  ascription _ := none
  standalone validator := (Expr.name "type").call [validator]
  declarations := declarations

end ClientGen.Validator.Arktype
