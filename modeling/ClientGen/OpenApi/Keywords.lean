import ClientGen.OpenApi.Schema
import ClientGen.Reference

/-!
# Schemas by their keywords

A schema is a reference, or else what its keywords say. `Keywords` are those of one schema, with
values of any type in the places of the schemas inside it, and `Keywords.form` picks the keyword
that decides, in a fixed order of precedence. `Schema.fold` is the one recursion over schemas: it
gives a schema a meaning from the meanings of the schemas inside it, each of which knows its place.
-/

namespace ClientGen.OpenApi

/-- The keywords of a schema without a reference. A flag that is not written does not hold, and
nothing is required unless it is listed. -/
structure Keywords (τ : Type) where
  type : Option TypeKeyword := none
  properties : Option (List (String × τ)) := none
  required : List String := []
  items : Option τ := none
  enumeration : Option (List Json) := none
  anyOf : Option (List τ) := none
  oneOf : Option (List τ) := none
  allOf : Option (List τ) := none
  additional : Option (Additional τ) := none
  format : Option String := none
  const : Option Json := none
  nullable : Bool := false
  negated : Bool := false

/-- What decides the type of a schema. -/
inductive Form (τ : Type)
  | constant (value : Json)
  | allOf (members : List τ)
  | oneOf (members : List τ)
  | anyOf (members : List τ)
  | enumeration (values : List Json)
  | type (name : String)
  | types (names : List String)
  | object
  | array
  | negation
  | nothing

namespace Keywords

variable {τ : Type}

/-- What the keywords suggest when none of them fixes a type. -/
def suggestion (keywords : Keywords τ) : Form τ :=
  if keywords.properties.isSome || keywords.additional.isSome then .object
  else if keywords.items.isSome then .array
  else if keywords.negated then .negation
  else .nothing

/-- The keyword that decides: a constant, the compositions `allOf`, `oneOf` and `anyOf`, a list of
values, the declared types, and last what the other keywords suggest. -/
def form (keywords : Keywords τ) : Form τ :=
  match keywords.const, keywords.allOf, keywords.oneOf, keywords.anyOf, keywords.enumeration,
    keywords.type with
  | some value, _, _, _, _, _ => .constant value
  | none, some members, _, _, _, _ => .allOf members
  | none, none, some members, _, _, _ => .oneOf members
  | none, none, none, some members, _, _ => .anyOf members
  | none, none, none, none, some values, _ => .enumeration values
  | none, none, none, none, none, some (.one name) => .type name
  | none, none, none, none, none, some (.many names) => .types names
  | none, none, none, none, none, none => keywords.suggestion

end Keywords

namespace Schema

variable {τ : Type} (reference : String → τ) (shape : Keywords τ → String → τ)

mutual

/-- The meaning of the schema at `pointer`, where `reference` gives that of a reference and `shape`
that of keywords. -/
def fold : Schema → String → τ
  | ⟨_, some path, _, _, _, _, _, _, _, _, _, _, _, _⟩, _ => reference path
  | ⟨type, none, properties, required, items, enumeration, anyOf, oneOf, allOf, additional, format,
      const, nullable, negated⟩, pointer =>
    let place := Reference.child pointer
    shape
      { type := type
        properties := foldProperties? properties (place "properties")
        required := required.getD []
        items := fold? items (place "items")
        enumeration := enumeration
        anyOf := foldMembers? anyOf (place "anyOf")
        oneOf := foldMembers? oneOf (place "oneOf")
        allOf := foldMembers? allOf (place "allOf")
        additional := foldAdditional additional (place "additionalProperties")
        format := format
        const := const
        nullable := nullable == some true
        negated := negated.isSome }
      pointer

/-- The meaning of a schema that may be missing. -/
def fold? : Option Schema → String → Option τ
  | none, _ => none
  | some schema, pointer => some (schema.fold pointer)

/-- The meanings of properties below `pointer`. -/
def foldProperties : List (String × Schema) → String → List (String × τ)
  | [], _ => []
  | (name, schema) :: more, pointer =>
    (name, schema.fold (Reference.child pointer name)) :: foldProperties more pointer

/-- The meanings of properties that may be missing. -/
def foldProperties? : Option (List (String × Schema)) → String → Option (List (String × τ))
  | none, _ => none
  | some list, pointer => some (foldProperties list pointer)

/-- The meanings of schemas in a list at `pointer`, the first of which has the place `place`. -/
def foldMembers : List Schema → String → Nat → List τ
  | [], _, _ => []
  | schema :: more, pointer, place =>
    schema.fold (Reference.child pointer (toString place)) :: foldMembers more pointer (place + 1)

/-- The meanings of the schemas of a composition that may be missing. -/
def foldMembers? : Option (List Schema) → String → Option (List τ)
  | none, _ => none
  | some list, pointer => some (foldMembers list pointer 0)

/-- The meaning of what is said about undeclared properties. -/
def foldAdditional : Option (Additional Schema) → String → Option (Additional τ)
  | none, _ => none
  | some (.allowed value), _ => some (.allowed value)
  | some (.schema schema), pointer => some (.schema (schema.fold pointer))

end

end Schema

end ClientGen.OpenApi
