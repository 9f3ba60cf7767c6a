import ClientGen.Validator.Library

/-!
# io-ts

Codecs of the io-ts library. An object keeps its required and its optional properties in codecs of
their own, and an intersection takes at most five codecs, so that one of more nests to the right.
-/

namespace ClientGen.Validator.IoTs

open Script

/-- A value of the library. -/
def codec (name : String) : Expr :=
  (Expr.name "t").member name

/-- A function of the library applied. -/
def t (name : String) (arguments : List Expr) : Expr :=
  (codec name).call arguments

/-- A scalar type. Integers are numbers, because the codec of integers has a type of its own. -/
def primitive : PrimitiveKind → Option String → Expr
  | .string, _ => codec "string"
  | .number, _ => codec "number"
  | .integer, _ => codec "number"
  | .boolean, _ => codec "boolean"
  | .null, _ => codec "null"

/-- An object with any properties that match. -/
def record (value : Expr) : Expr :=
  t "record" [codec "string", value]

/-- Members with all from the fifth on in an intersection of their own if there are more than five.
The fuel bounds how often that happens. -/
def chunk (fuel : Nat) (members : List Expr) : List Expr :=
  match fuel with
  | 0 => members
  | fuel + 1 =>
    if members.length ≤ 5 then members
    else members.take 4 ++ [t "intersection" [.array (chunk fuel (members.drop 4))]]

/-- An intersection. -/
def intersection (members : List Expr) : Expr :=
  t "intersection" [.array (chunk members.length members)]

/-- Properties with their keys. -/
def shape (fields : List Field) : Expr :=
  .object (fields.map fun field => (field.key, field.validator))

/-- The codecs that make up an object: one for the required properties unless there are only
optional ones, one for those, and one for all others. -/
def parts (fields : List Field) (rest : Option Expr) : List Expr :=
  let required := fields.filter (·.required)
  let optional := fields.filter (!·.required)
  (if !required.isEmpty || optional.isEmpty then [t "type" [shape required]] else [])
    ++ (if optional.isEmpty then [] else [t "partial" [shape optional]])
    ++ (match rest with
      | some value => [record value]
      | none => [])

/-- An object. -/
def object (fields : List Field) (rest : Option Expr) : Expr :=
  match parts fields rest with
  | [part] => part
  | several => intersection several

/-- A literal. -/
def literal : Literal → Expr
  | .null => codec "null"
  | value => t "literal" [.literal value]

/-- A reference, which is resolved late while schemas are being declared. -/
def reference : Scope → String → Expr
  | .declaration, name => t "recursion" [.quotedName name, .lambda none (.name name)]
  | .endpoint, name => .name name

/-- The type of a codec that refers to itself. -/
def ascription (name : String) : Option Ascription :=
  some (.ofSchema "t.Type" name)

/-- How the library writes validators. -/
def library : Library where
  imports := .all "t" "io-ts"
  primitive := primitive
  array item := t "array" [item]
  object := object
  record := record
  literal := literal
  union members := t "union" [.array members]
  intersection := intersection
  reference := reference
  unknown := codec "unknown"
  never := codec "never"
  ascription := ascription
  declarations := Library.constants ascription

end ClientGen.Validator.IoTs
