import ClientGen.Validator.Library

/-!
# Zod

Validators of the Zod library. An intersection takes two validators, so that one of several nests to
the left.
-/

namespace ClientGen.Validator.Zod

open Script

/-- A function of the library applied. -/
def z (name : String) (arguments : List Expr) : Expr :=
  (Expr.name "z").invoke name arguments

/-- The check that a format adds to a text. -/
def formatCheck? (format : String) : Option String :=
  if format = "date-time" then some "datetime"
  else if format = "email" then some "email"
  else if format = "uuid" then some "uuid"
  else if format = "uri" ∨ format = "url" then some "url"
  else none

/-- A scalar type. -/
def primitive : PrimitiveKind → Option String → Expr
  | .string, format =>
    match format.bind formatCheck? with
    | some check => (z "string" []).invoke check []
    | none => z "string" []
  | .number, _ => z "number" []
  | .integer, _ => (z "number" []).invoke "int" []
  | .boolean, _ => z "boolean" []
  | .null, _ => z "null" []

/-- A property with its key. -/
def property (field : Field) : String × Expr :=
  (field.key, if field.required then field.validator else field.validator.invoke "optional" [])

/-- An object. -/
def object (fields : List Field) (rest : Option Expr) : Expr :=
  let declared := z "object" [.object (fields.map property)]
  match rest with
  | some value => declared.invoke "catchall" [value]
  | none => declared

/-- A literal. -/
def literal : Literal → Expr
  | .null => z "null" []
  | value => z "literal" [.literal value]

/-- An intersection, two at a time from the left. -/
def intersection : List Expr → Expr
  | [] => z "unknown" []
  | first :: rest => rest.foldl (fun members next => z "intersection" [members, next]) first

/-- A reference, which is resolved late while schemas are being declared. -/
def reference : Scope → String → Expr
  | .declaration, name => z "lazy" [.lambda none (.name name)]
  | .endpoint, name => .name name

/-- The type of a validator that refers to itself. -/
def ascription (name : String) : Option Ascription :=
  some (.ofSchema "z.ZodType" name)

/-- How the library writes validators. -/
def library : Library where
  imports := .names ["z"] "zod"
  primitive := primitive
  array item := z "array" [item]
  object := object
  record value := z "record" [value]
  literal := literal
  union members := z "union" [.array members]
  intersection := intersection
  reference := reference
  unknown := z "unknown" []
  never := z "never" []
  ascription := ascription
  declarations := Library.constants ascription

end ClientGen.Validator.Zod
