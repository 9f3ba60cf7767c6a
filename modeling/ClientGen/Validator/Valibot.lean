import ClientGen.Validator.Library

/-!
# Valibot

Validators of the Valibot library. A check that a format adds is one more step of a pipe.
-/

namespace ClientGen.Validator.Valibot

open Script

/-- A function of the library applied. -/
def v (name : String) (arguments : List Expr) : Expr :=
  (Expr.name "v").invoke name arguments

/-- The check that a format adds to a text. -/
def formatCheck? (format : String) : Option String :=
  if format = "date-time" then some "isoTimestamp"
  else if format = "date" then some "isoDate"
  else if format = "email" then some "email"
  else if format = "uuid" then some "uuid"
  else if format = "uri" ∨ format = "url" then some "url"
  else none

/-- A scalar type. -/
def primitive : PrimitiveKind → Option String → Expr
  | .string, format =>
    match format.bind formatCheck? with
    | some check => v "pipe" [v "string" [], v check []]
    | none => v "string" []
  | .number, _ => v "number" []
  | .integer, _ => v "pipe" [v "number" [], v "integer" []]
  | .boolean, _ => v "boolean" []
  | .null, _ => v "null" []

/-- A property with its key. -/
def property (field : Field) : String × Expr :=
  (field.key, if field.required then field.validator else v "optional" [field.validator])

/-- An object. -/
def object (fields : List Field) (rest : Option Expr) : Expr :=
  let entries := Expr.object (fields.map property)
  match rest with
  | some value => v "objectWithRest" [entries, value]
  | none => v "object" [entries]

/-- A literal. -/
def literal : Literal → Expr
  | .null => v "null" []
  | value => v "literal" [.literal value]

/-- A reference, which is resolved late while schemas are being declared. -/
def reference : Scope → String → Expr
  | .declaration, name => v "lazy" [.lambda none (.name name)]
  | .endpoint, name => .name name

/-- The type of a validator that refers to itself. -/
def ascription (name : String) : Option Ascription :=
  some (.ofSchema "v.GenericSchema" name)

/-- How the library writes validators. -/
def library : Library where
  imports := .all "v" "valibot"
  primitive := primitive
  array item := v "array" [item]
  object := object
  record value := v "record" [v "string" [], value]
  literal := literal
  union members := v "union" [.array members]
  intersection members := v "intersect" [.array members]
  reference := reference
  unknown := v "unknown" []
  never := v "never" []
  ascription := ascription
  declarations := Library.constants ascription

end ClientGen.Validator.Valibot
