import ClientGen.Literal

/-!
# Type descriptors

What a schema says about values, in a normalized form. A descriptor owns its parts, except that a
reference only names an entry of a type table: this is how types that contain themselves are
finite. `Descriptor.references` lists the references inside a descriptor from left to right.
-/

namespace ClientGen

/-- Kinds of scalar types. -/
inductive PrimitiveKind
  | string
  | number
  | integer
  | boolean
  | null
deriving DecidableEq, Repr

/-- The keyword a union was written with. -/
inductive UnionKind
  | oneOf
  | anyOf
deriving DecidableEq, Repr

/-- A named part of an object. -/
structure Property (τ : Type) where
  name : String
  type : τ
  required : Bool
deriving DecidableEq, Repr

/-- A normalized type. -/
inductive Descriptor
  | primitive (kind : PrimitiveKind) (format : Option String)
  | array (item : Descriptor)
  /-- Declared properties, with distinct names, and the type of all others if there may be any. -/
  | object (properties : List (Property Descriptor)) (rest : Option Descriptor)
  | enumeration (values : List Literal)
  | union (kind : UnionKind) (members : List Descriptor)
  | intersection (members : List Descriptor)
  /-- The entry of a type table under `key`, which is declared as `name`. -/
  | reference (key name : String)
  | unknown
deriving Repr

namespace Descriptor

instance : Inhabited Descriptor := ⟨unknown⟩

/-- A scalar type without a format. -/
def scalar (kind : PrimitiveKind) : Descriptor := primitive kind none

/-- Whether the type deserves a declaration of its own where a body or response has it. -/
def isComplex : Descriptor → Bool
  | object properties _ => !properties.isEmpty
  | enumeration _ => true
  | union _ _ => true
  | intersection _ => true
  | _ => false

/-- Whether the type is a reference. -/
def isReference : Descriptor → Bool
  | reference _ _ => true
  | _ => false

/-! ### References -/

mutual

/-- Keys and names of the references inside a type, from left to right. -/
def references : Descriptor → List (String × String)
  | reference key name => [(key, name)]
  | array item => item.references
  | object properties rest =>
    referencesOfProperties properties ++ (match rest with | some r => r.references | none => [])
  | union _ members => referencesOfMembers members
  | intersection members => referencesOfMembers members
  | primitive _ _ => []
  | enumeration _ => []
  | unknown => []

/-- Keys and names of the references inside properties. -/
def referencesOfProperties : List (Property Descriptor) → List (String × String)
  | [] => []
  | property :: more => property.type.references ++ referencesOfProperties more

/-- Keys and names of the references inside a list of types. -/
def referencesOfMembers : List Descriptor → List (String × String)
  | [] => []
  | member :: more => member.references ++ referencesOfMembers more

end

/-! ### Equality -/

mutual

/-- Whether two types are equal; literals are compared by value. -/
def same : Descriptor → Descriptor → Bool
  | primitive k f, primitive k' f' => k == k' && f == f'
  | array i, array i' => i.same i'
  | object ps r, object ps' r' =>
    sameProperties ps ps' &&
      (match r, r' with
      | some d, some d' => d.same d'
      | none, none => true
      | _, _ => false)
  | enumeration vs, enumeration vs' =>
    vs.length == vs'.length && (vs.zip vs').all fun (v, v') => v.same v'
  | union k ms, union k' ms' => k == k' && sameMembers ms ms'
  | intersection ms, intersection ms' => sameMembers ms ms'
  | reference k n, reference k' n' => k == k' && n == n'
  | unknown, unknown => true
  | _, _ => false

/-- Whether two lists of properties are equal. -/
def sameProperties : List (Property Descriptor) → List (Property Descriptor) → Bool
  | [], [] => true
  | p :: ps, p' :: ps' =>
    p.name == p'.name && p.required == p'.required && p.type.same p'.type && sameProperties ps ps'
  | _, _ => false

/-- Whether two lists of types are equal. -/
def sameMembers : List Descriptor → List Descriptor → Bool
  | [], [] => true
  | m :: ms, m' :: ms' => m.same m' && sameMembers ms ms'
  | _, _ => false

end

/-! ### Null -/

/-- The type of `null`. -/
def null : Descriptor := scalar .null

/-- Whether the type is that of `null`, without a format. -/
def isNull : Descriptor → Bool
  | primitive .null none => true
  | _ => false

/-- The type that also admits `null`; a type that lists its cases gets `null` as one more case
unless it is one of them. -/
def orNull : Descriptor → Descriptor
  | unknown => unknown
  | union kind members =>
    union kind (if members.any isNull then members else members ++ [null])
  | enumeration values =>
    enumeration (if values.any (·.same .null) then values else values ++ [.null])
  | other => if other.isNull then other else union .anyOf [other, null]

end Descriptor

end ClientGen
