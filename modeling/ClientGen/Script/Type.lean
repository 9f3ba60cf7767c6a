import ClientGen.Descriptor.Basic
import ClientGen.Text.Join

/-!
# Type expressions

The types that a generated module declares, how they are made from descriptors, and how they are
written. An optional property also admits `undefined`. Parentheses stand only around a union inside
an intersection; an array of a union or an intersection is written `Array<...>`.
-/

namespace ClientGen.Script

/-- A type that is a keyword. -/
inductive Keyword
  | string
  | number
  | boolean
  | null
  | undefined
  | unknown
  | never
deriving DecidableEq, Repr

/-- The keyword as it is written. -/
def Keyword.text : Keyword → String
  | .string => "string"
  | .number => "number"
  | .boolean => "boolean"
  | .null => "null"
  | .undefined => "undefined"
  | .unknown => "unknown"
  | .never => "never"

/-- A property of an object type. -/
structure Member (τ : Type) where
  name : String
  type : τ
  optional : Bool := false
deriving Repr

/-- A type expression. -/
inductive TypeExpr
  | keyword (keyword : Keyword)
  | literal (value : Literal)
  | array (item : TypeExpr)
  | object (members : List (Member TypeExpr))
  /-- Objects with any properties of one type. -/
  | record (value : TypeExpr)
  | union (members : List TypeExpr)
  | intersection (members : List TypeExpr)
  /-- A type with a name, which may be qualified. -/
  | named (name : String)
deriving Repr

/-- The namespace of the types of schemas. -/
def schemasNamespace : String := "Schemas"

namespace TypeExpr

/-! ### Types of descriptors -/

/-- The keyword of a scalar type. -/
def ofKind : PrimitiveKind → TypeExpr
  | .string => keyword .string
  | .number => keyword .number
  | .integer => keyword .number
  | .boolean => keyword .boolean
  | .null => keyword .null

/-- A composition of types. One type stands for itself, and none says nothing. -/
def compose (wrap : List TypeExpr → TypeExpr) : List TypeExpr → TypeExpr
  | [] => keyword .unknown
  | [member] => member
  | members => wrap members

/-- A list of values. One value stands for itself. -/
def ofLiterals : List Literal → TypeExpr
  | [value] => literal value
  | values => union (values.map literal)

/-- The type of an object with declared properties and others. -/
def ofObject (members : List (Member TypeExpr)) (rest : Option TypeExpr) : TypeExpr :=
  match members, rest with
  | [], none => record (keyword .never)
  | members, none => object members
  | [], some value => record value
  | members, some value => intersection [object members, record value]

/-- The property with a type; an optional one may be `undefined`. -/
def ofProperty (name : String) (type : TypeExpr) (required : Bool) : Member TypeExpr :=
  if required then ⟨name, type, false⟩ else ⟨name, union [type, keyword .undefined], true⟩

mutual

/-- The type that a descriptor describes. -/
def ofDescriptor : Descriptor → TypeExpr
  | .primitive kind _ => ofKind kind
  | .array item => array (ofDescriptor item)
  | .object properties rest =>
    ofObject (ofProperties properties)
      (match rest with
      | some value => some (ofDescriptor value)
      | none => none)
  | .enumeration values => ofLiterals values
  | .union _ members => compose union (ofDescriptors members)
  | .intersection members => compose intersection (ofDescriptors members)
  | .reference _ name => named (schemasNamespace ++ "." ++ name)
  | .unknown => keyword .unknown

/-- The properties that descriptors of properties describe. -/
def ofProperties : List (Property Descriptor) → List (Member TypeExpr)
  | [] => []
  | property :: rest =>
    ofProperty property.name (ofDescriptor property.type) property.required :: ofProperties rest

/-- The types that descriptors describe. -/
def ofDescriptors : List Descriptor → List TypeExpr
  | [] => []
  | member :: rest => ofDescriptor member :: ofDescriptors rest

end

/-- The type of a descriptor, if there is one. -/
def ofDescriptor? : Option Descriptor → TypeExpr
  | some type => ofDescriptor type
  | none => keyword .unknown

/-! ### Text -/

/-- Whether the type is written as a list of alternatives. -/
def isUnion : TypeExpr → Bool
  | .union _ => true
  | _ => false

/-- Whether the type is written as a list of several types. -/
def isList : TypeExpr → Bool
  | .union _ => true
  | .intersection _ => true
  | _ => false

/-- An object type, given its properties as texts. -/
def objectText (members : List String) : String :=
  if members.isEmpty then "\x7b\x7d" else "\x7b " ++ Text.join "; " members ++ " \x7d"

mutual

/-- The type as it is written. -/
def text : TypeExpr → String
  | .keyword word => word.text
  | .literal value => value.text
  | .array item => if item.isList then "Array<" ++ item.text ++ ">" else item.text ++ "[]"
  | .object members => objectText (memberTexts members)
  | .record value => "Record<string, " ++ value.text ++ ">"
  | .union members => Text.join " | " (texts members)
  | .intersection members => Text.join " & " (factorTexts members)
  | .named name => name

/-- Types as they are written. -/
def texts : List TypeExpr → List String
  | [] => []
  | member :: rest => member.text :: texts rest

/-- Types as they are written inside an intersection. -/
def factorTexts : List TypeExpr → List String
  | [] => []
  | member :: rest =>
    (if member.isUnion then "(" ++ member.text ++ ")" else member.text) :: factorTexts rest

/-- Properties as they are written. -/
def memberTexts : List (Member TypeExpr) → List String
  | [] => []
  | member :: rest =>
    (Quoted.key member.name ++ (if member.optional then "?" else "") ++ ": " ++ member.type.text)
      :: memberTexts rest

end

end TypeExpr

end ClientGen.Script
