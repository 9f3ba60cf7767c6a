import ClientGen.Mapping.Basic
import ClientGen.OpenApi.Keywords

/-!
# Types of schemas

The type of a schema that is no reference follows from its keywords and the types of the schemas
inside it (`interpret`); a part that has no precise type is unknown and recorded as such. The schema
that a reference names is mapped once, under the key of the reference; while it is being mapped, and
ever after, the reference is all there is to it (`expand`).
-/

namespace ClientGen

open OpenApi Mapping

namespace Mapping

/-! ### Leaves -/

/-- A composition of types. One type stands for itself, and none is a fault. -/
def compose (keyword pointer : String) (wrap : List Descriptor → Descriptor)
    (members : List (MapM Descriptor)) : MapM Descriptor := do
  match ← members.mapM id with
  | [] => degrade pointer (.emptyComposition keyword)
  | [member] => return member
  | members => return wrap members

/-- The type of one constant. -/
def constant (value : Json) (pointer : String) : MapM Descriptor :=
  match Literal.ofJson? value with
  | some literal => return .enumeration [literal]
  | none => degrade pointer .nonScalarConst

/-- Literals with those of further values; a value with an earlier literal adds nothing, and one
without a literal is recorded. -/
def collectLiterals (pointer : String) : List Literal → List Json → MapM (List Literal)
  | literals, [] => return literals
  | literals, value :: rest =>
    match Literal.ofJson? value with
    | some literal =>
      collectLiterals pointer
        (if literals.any (·.same literal) then literals else literals ++ [literal]) rest
    | none => do
      report (Reference.child pointer "enum") .nonScalarMember
      collectLiterals pointer literals rest

/-- The type of a list of values. -/
def enumerated (values : List Json) (pointer : String) : MapM Descriptor := do
  let literals ← collectLiterals pointer [] values
  if literals.isEmpty then degrade pointer .noScalarMember else return .enumeration literals

/-- The scalar type with a name. -/
def scalarKind? (name : String) : Option PrimitiveKind :=
  if name = "string" then some .string
  else if name = "number" then some .number
  else if name = "integer" then some .integer
  else if name = "boolean" then some .boolean
  else if name = "null" then some .null
  else none

/-- The type with a name, given the types of arrays and objects. -/
def typeNamed (array object : MapM Descriptor) (format : Option String) (pointer name : String) :
    MapM Descriptor :=
  match scalarKind? name with
  | some kind => return .primitive kind format
  | none =>
    if name = "array" then array
    else if name = "object" then object
    else degrade pointer (.unsupportedType name)

/-- Types with the types of further names; an equal type adds nothing. -/
def collectTypes (named : String → MapM Descriptor) : List Descriptor → List String →
    MapM (List Descriptor)
  | types, [] => return types
  | types, name :: rest => do
    let type ← named name
    collectTypes named (if types.any (·.same type) then types else types ++ [type]) rest

/-- The type of a list of names. -/
def typesNamed (named : String → MapM Descriptor) (pointer : String) (names : List String) :
    MapM Descriptor := do
  match ← collectTypes named [] names with
  | [] => degrade pointer .emptyTypeList
  | [type] => return type
  | types => return .union .anyOf types

/-! ### Schemas -/

/-- The types of the properties that an object declares. -/
def declared (keywords : Keywords (MapM Descriptor)) : MapM (List (Property Descriptor)) :=
  (keywords.properties.getD []).mapM fun (name, type) => do
    return ⟨name, ← type, keywords.required.contains name⟩

/-- The type of all other properties of an object. One that declares none may have any, unless it
says otherwise. -/
def undeclared (declaresNone : Bool) :
    Option (Additional (MapM Descriptor)) → MapM (Option Descriptor)
  | some (.allowed true) => return some .unknown
  | some (.allowed false) => return none
  | some (.schema type) => some <$> type
  | none => return if declaresNone then some .unknown else none

/-- The type of an object. -/
def object (keywords : Keywords (MapM Descriptor)) : MapM Descriptor := do
  let properties ← declared keywords
  let rest ← undeclared properties.isEmpty keywords.additional
  return .object properties rest

/-- The type of an array. -/
def array (keywords : Keywords (MapM Descriptor)) : MapM Descriptor :=
  .array <$> keywords.items.getD (return .unknown)

/-- The type with a name. -/
def named (keywords : Keywords (MapM Descriptor)) (pointer name : String) : MapM Descriptor :=
  typeNamed (array keywords) (object keywords) keywords.format pointer name

/-- The members of `allOf`; an object with properties of its own is one more. -/
def conjuncts (keywords : Keywords (MapM Descriptor)) (members : List (MapM Descriptor)) :
    List (MapM Descriptor) :=
  if keywords.properties.isSome then members ++ [object keywords] else members

/-- The type that keywords at `pointer` describe, `null` left aside. -/
def shape (keywords : Keywords (MapM Descriptor)) (pointer : String) : MapM Descriptor :=
  match keywords.form with
  | .constant value => constant value pointer
  | .allOf members => compose "allOf" pointer .intersection (conjuncts keywords members)
  | .oneOf members => compose "oneOf" pointer (.union .oneOf) members
  | .anyOf members => compose "anyOf" pointer (.union .anyOf) members
  | .enumeration values => enumerated values pointer
  | .type name => named keywords pointer name
  | .types names => typesNamed (named keywords pointer) pointer names
  | .object => object keywords
  | .array => array keywords
  | .negation => degrade pointer .negation
  | .nothing => degrade pointer .missingType

/-- The type that keywords at `pointer` describe. -/
def interpret (keywords : Keywords (MapM Descriptor)) (pointer : String) : MapM Descriptor := do
  let type ← shape keywords pointer
  return if keywords.nullable then type.orNull else type

end Mapping

namespace OpenApi

/-- The type of the schema at `pointer`, where `onRef` gives the type of a reference. -/
def Schema.translate (onRef : String → MapM Descriptor) : Schema → String → MapM Descriptor :=
  Schema.fold onRef interpret

/-- The key of a reference to a schema, and the schema if it is there. All references to one
component have one key; any other reference is its own key. -/
def Document.target (doc : Document) (path : String) : String × Option Schema :=
  match Reference.componentName? "schemas" path with
  | some escaped =>
    let name := Reference.decodeSegment escaped
    (Reference.componentKey name, doc.schema? name)
  | none => (path, doc.lookup? Schema.read path)

end OpenApi

namespace Mapping

/-- The reference to a key that has no entry and gets none. -/
def dangling (key : String) : Descriptor :=
  .reference key (Identifier.typeName (Reference.lastSegment key))

/-- The type of a reference, whose schema is mapped first unless that has begun already. At most
`depth` references are followed from within one another. -/
def expand (doc : Document) : Nat → String → MapM Descriptor
  | 0, path => return dangling (doc.target path).1
  | depth + 1, path => do
    let (key, target) := doc.target path
    let state ← get
    if state.mapped.contains key || state.chain.contains key then
      let name ← resolveName key
      return .reference key name
    match target with
    | none => return dangling key
    | some schema => do
      let name ← resolveName key
      modify fun state => { state with chain := key :: state.chain }
      let type ← schema.translate (expand doc depth) key
      modify fun state => { state with chain := state.chain.tail }
      modify fun state => state.store key name type
      return .reference key name

/-- How deep references can be followed: each is new on the way down, and all but the first are
texts of the document. -/
def depthLimit (doc : Document) : Nat :=
  doc.raw.countStrings + 2

/-- The type of a reference. -/
def mapReference (doc : Document) (path : String) : MapM Descriptor :=
  expand doc (depthLimit doc) path

/-- The type of the schema at `pointer`. -/
def mapSchema (doc : Document) (schema : Schema) (pointer : String) : MapM Descriptor :=
  schema.translate (mapReference doc) pointer

/-- Maps all component schemas, in order. -/
def mapComponents (doc : Document) : MapM Unit :=
  doc.schemas.forM fun schema => do
    let _ ← mapReference doc (Reference.componentKey schema.1)

end Mapping

end ClientGen
