import ClientGen.Validator.Library

/-!
# TypeBox

Schemas of the TypeBox library. All schemas are members of one module, inside of which a reference
names any of them, and each is then imported from it for use everywhere else.
-/

namespace ClientGen.Validator.Typebox

open Script

/-- The constant that holds all schemas. -/
def moduleName : String := "__Schemas"

/-- A function of the library applied. -/
def type (name : String) (arguments : List Expr) : Expr :=
  (Expr.name "Type").invoke name arguments

/-- A scalar type. A text keeps its format, whatever it is. -/
def primitive : PrimitiveKind → Option String → Expr
  | .string, some format => type "String" [.object [("format", .string format)]]
  | .string, none => type "String" []
  | .number, _ => type "Number" []
  | .integer, _ => type "Integer" []
  | .boolean, _ => type "Boolean" []
  | .null, _ => type "Null" []

/-- A property with its key. -/
def property (field : Field) : String × Expr :=
  (field.key, if field.required then field.validator else type "Optional" [field.validator])

/-- An object. -/
def object (fields : List Field) (rest : Option Expr) : Expr :=
  let declared := Expr.object (fields.map property)
  match rest with
  | some value => type "Object" [declared, .object [("additionalProperties", value)]]
  | none => type "Object" [declared]

/-- A literal. -/
def literal : Literal → Expr
  | .null => type "Null" []
  | value => type "Literal" [.literal value]

/-- A reference, by name inside the module. -/
def reference : Scope → String → Expr
  | .declaration, name => type "Ref" [.string name]
  | .endpoint, name => .name name

/-- The module with all schemas, and each imported from it. -/
def declarations : List Declaration → List Item
  | [] => []
  | all =>
    .localConstant moduleName
        (type "Module" [.block 0 (all.map fun schema => (schema.name, schema.validator))])
      :: all.map fun schema =>
        .constant schema.name none ((Expr.name moduleName).invoke "Import" [.string schema.name])

/-- How the library writes validators. -/
def library : Library where
  imports := .names ["Type"] "@sinclair/typebox"
  primitive := primitive
  array item := type "Array" [item]
  object := object
  record value := type "Record" [type "String" [], value]
  literal := literal
  union members := type "Union" [.array members]
  intersection members := type "Intersect" [.array members]
  reference := reference
  unknown := type "Unknown" []
  never := type "Never" []
  ascription _ := none
  declarations := declarations

end ClientGen.Validator.Typebox
