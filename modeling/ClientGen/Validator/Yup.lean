import ClientGen.Validator.Library

/-!
# Yup

Schemas of the Yup library, which has no unions: a union is a test that accepts a value if any
member does. An intersection joins its members if none of them is lazy, and is a test of all of them
otherwise, because a lazy schema can neither be joined nor be marked as defined. Properties that an
object does not declare are never checked.
-/

namespace ClientGen.Validator.Yup

open Script

/-- The library. -/
def y : Expr := .name "y"

/-- Whether the text of an expression begins with a lazy schema. -/
def isLazy : Expr → Bool
  | .call callee _ =>
    (match callee with
    | .member (.name object) field => object == "y" && field == "lazy"
    | _ => false) || isLazy callee
  | .member target _ => isLazy target
  | .verbatim text => "y.lazy(".toList.isPrefixOf text.toList
  | _ => false

/-- The check that a format adds to a text. -/
def formatCheck? (format : String) : Option String :=
  if format = "date-time" then some "datetime"
  else if format = "email" then some "email"
  else if format = "uuid" then some "uuid"
  else if format = "uri" ∨ format = "url" then some "url"
  else none

/-- A schema for any value. -/
def anything : Expr :=
  (y.invoke "mixed" []).invoke "nullable" []

/-- The schema of `null`. -/
def null : Expr :=
  anything.invoke "oneOf" [.array [.literal .null]]

/-- A scalar type. -/
def primitive : PrimitiveKind → Option String → Expr
  | .string, format =>
    match format.bind formatCheck? with
    | some check => (y.invoke "string" []).invoke check []
    | none => y.invoke "string" []
  | .number, _ => y.invoke "number" []
  | .integer, _ => (y.invoke "number" []).invoke "integer" []
  | .boolean, _ => y.invoke "boolean" []
  | .null, _ => null

/-- A test of a value against members; `combinator` says how many of them have to accept it. -/
def membersTest (name message combinator : String) (members : List Expr) : Expr :=
  anything.invoke "test" [.string name, .string message,
    .lambda (some "value") ((Expr.array members).invoke combinator
      [.lambda (some "member") ((Expr.name "member").invoke "isValidSync" [.name "value"])])]

/-- A message about the value at fault. -/
def pathMessage (rest : String) : String := "$\x7bpath\x7d " ++ rest

/-- A property with its key. -/
def property (field : Field) : String × Expr :=
  (field.key,
    if field.required then
      if isLazy field.validator then field.validator else field.validator.invoke "defined" []
    else field.validator.invoke "optional" [])

/-- An object. -/
def object (fields : List Field) (_ : Option Expr) : Expr :=
  y.invoke "object" [.object (fields.map property)]

/-- An object with any properties that match, made when its properties are known. -/
def record (value : Expr) : Expr :=
  let keys := (Expr.name "Object").invoke "keys" [.orElse (.name "record") (.object [])]
  let pairs := keys.invoke "map" [.lambda (some "key") (.array [.name "key", value])]
  y.invoke "lazy" [.lambda (some "record")
    (y.invoke "object" [(Expr.name "Object").invoke "fromEntries" [pairs]])]

/-- A literal. -/
def literal : Literal → Expr
  | .null => null
  | value => (y.invoke "mixed" []).invoke "oneOf" [.array [.literal value]]

/-- A union. -/
def union (members : List Expr) : Expr :=
  membersTest "union" (pathMessage "matches no member") "some" members

/-- An intersection. -/
def intersection (members : List Expr) : Expr :=
  if members.any isLazy then
    membersTest "intersection" (pathMessage "fails a member") "every" members
  else
    match members with
    | [] => anything
    | first :: rest => rest.foldl (fun joined next => joined.invoke "concat" [next]) first

/-- A reference, which is resolved late while schemas are being declared. -/
def reference : Scope → String → Expr
  | .declaration, name => y.invoke "lazy" [.lambda none (.name name)]
  | .endpoint, name => .name name

/-- The schema that accepts nothing. -/
def never : Expr :=
  (y.invoke "mixed" []).invoke "test" [.string "never", .string (pathMessage "must be absent"),
    .lambda none (.literal (.bool false))]

/-- The type of a schema that refers to itself. -/
def ascription (name : String) : Option Ascription :=
  some (.ofSchema "y.Schema" name)

/-- How the library writes validators. -/
def library : Library where
  imports := .all "y" "yup"
  primitive := primitive
  array item := (y.invoke "array" []).invoke "of" [item]
  object := object
  record := record
  literal := literal
  union := union
  intersection := intersection
  reference := reference
  unknown := anything
  never := never
  ascription := ascription
  declarations := Library.constants ascription

end ClientGen.Validator.Yup
