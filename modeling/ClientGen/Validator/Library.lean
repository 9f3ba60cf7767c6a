import ClientGen.Script.Module

/-!
# Validator libraries

What distinguishes the libraries that values can be checked with at runtime: how each writes the
validators of the basic types and of compositions. Walking a descriptor is the same for all of them
(`Library.render`).
-/

namespace ClientGen.Validator

open Script

/-- Where the validator of a schema is referred to. -/
inductive Scope
  /-- Among the validators of schemas, some of which may not be declared yet. -/
  | declaration
  /-- After all of them. -/
  | endpoint
deriving DecidableEq, Repr

/-- A property of an object, with its key as it is written. -/
structure Field where
  key : String
  validator : Expr
  required : Bool

/-- The validator of a schema, to be declared. -/
structure Declaration where
  name : String
  validator : Expr
  recursive : Bool

/-- How a library writes validators. -/
structure Library where
  imports : Import
  primitive : PrimitiveKind → Option String → Expr
  array : Expr → Expr
  /-- An object with declared properties, whose other properties match the second argument. -/
  object : List Field → Option Expr → Expr
  /-- An object with any properties that match. -/
  record : Expr → Expr
  literal : Literal → Expr
  union : List Expr → Expr
  intersection : List Expr → Expr
  reference : Scope → String → Expr
  unknown : Expr
  never : Expr
  /-- The type that a declaration that refers to itself needs. -/
  ascription : String → Option Ascription
  /-- A validator outside of any declaration of a schema. -/
  standalone : Expr → Expr := id
  /-- The declarations of the validators of all schemas. -/
  declarations : List Declaration → List Item

namespace Library

/-- One exported constant for each schema, with an ascription if it refers to itself. -/
def constants (ascription : String → Option Ascription) (declarations : List Declaration) :
    List Item :=
  declarations.map fun declaration =>
    .constant declaration.name (if declaration.recursive then ascription declaration.name else none)
      declaration.validator

/-- A composition of validators. One stands for itself. -/
def compose (none : Expr) (wrap : List Expr → Expr) : List Expr → Expr
  | [] => none
  | [member] => member
  | members => wrap members

variable (library : Library) (scope : Scope)

mutual

/-- The validator of a type. -/
def render : Descriptor → Expr
  | .primitive kind format => library.primitive kind format
  | .array item => library.array (render item)
  | .object properties rest =>
    match properties, rest with
    | [], some value => library.record (render value)
    | properties, some value => library.object (renderProperties properties) (some (render value))
    | properties, none => library.object (renderProperties properties) none
  | .enumeration values => compose library.never library.union (values.map library.literal)
  | .union _ members => compose library.unknown library.union (renderMembers members)
  | .intersection members => compose library.unknown library.intersection (renderMembers members)
  | .reference _ name => library.reference scope name
  | .unknown => library.unknown

/-- The validators of properties. -/
def renderProperties : List (Property Descriptor) → List Field
  | [] => []
  | property :: rest =>
    ⟨Quoted.key property.name, render property.type, property.required⟩ :: renderProperties rest

/-- The validators of types. -/
def renderMembers : List Descriptor → List Expr
  | [] => []
  | member :: rest => render member :: renderMembers rest

end

end Library

end ClientGen.Validator
