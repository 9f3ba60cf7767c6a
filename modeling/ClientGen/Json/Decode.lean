import ClientGen.Json.Basic
import ClientGen.Number.Decimal
import ClientGen.Text.Shown

/-!
# Reading typed values

Readers of typed values from JSON values, with the first fault in document order as their error. A
record is written as an object, whose unknown members are ignored, or as an array of its fields in
the order of declaration. A field that admits `null` has the value `none` then.
-/

namespace ClientGen.Json

/-! ### Errors -/

/-- What a reader expects. -/
inductive Shape
  | string
  | boolean
  | sequence
  | map
  | record (name : String)
deriving Repr

/-- Why a value has no typed form. -/
inductive DecodeError
  /-- A value of another kind. -/
  | wrongShape (found : Json) (expected : Shape)
  /-- An object without a field that has to be there. -/
  | missingField (name : String)
  /-- A value that is none of the alternatives of a choice. -/
  | noAlternative (choice : String)
  /-- An array that ends before a field of a record with so many fields. -/
  | tooShort (length : Nat) (record : String) (fields : Nat)
  /-- An array with more items than the record has fields. -/
  | tooLong (length : Nat)
deriving Repr

/-- The name of a shape in messages. -/
def Shape.text : Shape → String
  | .string => "a string"
  | .boolean => "a boolean"
  | .sequence => "a sequence"
  | .map => "a map"
  | .record name => "struct " ++ name

/-- A text between backquotes. -/
def codeText (text : String) : String :=
  "\x60" ++ text ++ "\x60"

/-- A value as messages describe it: scalars with their value, others by their kind. -/
def describe : Json → String
  | .null => "null"
  | .bool value => "boolean " ++ codeText (if value then "true" else "false")
  | .int value => "integer " ++ codeText (toString value)
  | .float value => "floating point " ++ codeText value.pointText
  | .string value => "string " ++ Text.shown value
  | .array _ => "sequence"
  | .object _ => "map"

/-- The message of an error. -/
def DecodeError.message : DecodeError → String
  | .wrongShape found expected =>
    "invalid type: " ++ found.describe ++ ", expected " ++ expected.text
  | .missingField name => "missing field " ++ codeText name
  | .noAlternative choice => "data did not match any variant of untagged enum " ++ choice
  | .tooShort length record fields =>
    "invalid length " ++ toString length ++ ", expected struct " ++ record ++ " with "
      ++ toString fields ++ (if fields = 1 then " element" else " elements")
  | .tooLong length =>
    "invalid length " ++ toString length ++ ", expected fewer elements in array"

/-! ### Readers -/

/-- A reader of typed values. -/
abbrev Decoder (α : Type) := Json → Except DecodeError α

/-- A text. -/
def readString : Decoder String
  | .string value => .ok value
  | found => .error (.wrongShape found .string)

/-- A truth value. -/
def readBool : Decoder Bool
  | .bool value => .ok value
  | found => .error (.wrongShape found .boolean)

/-- Any value, as it is. -/
def readAny : Decoder Json := .ok

/-- A list of values of one type. -/
def readList {α : Type} (item : Decoder α) : Decoder (List α)
  | .array items => items.mapM item
  | found => .error (.wrongShape found .sequence)

/-- Named values of one type, in order. -/
def readMap {α : Type} (item : Decoder α) : Decoder (List (String × α))
  | .object members => members.mapM fun member => (item member.2).map (member.1, ·)
  | found => .error (.wrongShape found .map)

/-- A value or `null`. -/
def readNullable {α : Type} (value : Decoder α) : Decoder (Option α)
  | .null => .ok none
  | found => (value found).map some

/-! ### Records -/

/-- What becomes of a field that is not written. -/
inductive Presence
  /-- It has to be written. -/
  | required
  /-- An object may leave it out, an array may not end before it. -/
  | optional
  /-- It has a default. -/
  | defaulted
deriving DecidableEq

/-- A field of a record of type `σ`. -/
structure RecordField (σ : Type) where
  name : String
  presence : Presence
  /-- The record with the field read from a value. -/
  fill : Json → σ → Except DecodeError σ

/-- A field that is read by `value` and stored by `store`. -/
def RecordField.of {σ α : Type} (name : String) (presence : Presence) (value : Decoder α)
    (store : σ → α → σ) : RecordField σ :=
  ⟨name, presence, fun json record => (value json).map (store record)⟩

/-- The record with the member of an object read, if it is a field. -/
def fillNamed {σ : Type} (fields : List (RecordField σ)) (record : σ) (member : String × Json) :
    Except DecodeError σ :=
  match fields.find? fun field => field.name == member.1 with
  | some field => field.fill member.2 record
  | none => .ok record

/-- The record with the items of an array read as fields, the first of which has place `place` among
`count`. -/
def fillInOrder {σ : Type} (name : String) (count : Nat) (place : Nat)
    (fields : List (RecordField σ)) (items : List Json) (record : σ) : Except DecodeError σ :=
  match fields, items with
  | [], _ => .ok record
  | field :: fields, item :: items => do
    fillInOrder name count (place + 1) fields items (← field.fill item record)
  | field :: fields, [] =>
    if field.presence = .defaulted then fillInOrder name count (place + 1) fields [] record
    else .error (.tooShort place name count)

/-- A record that starts out as `blank`. -/
def readRecord {σ : Type} (name : String) (fields : List (RecordField σ)) (blank : σ) : Decoder σ
  | .object members => do
    let record ← members.foldlM (fillNamed fields) blank
    match fields.find? fun field =>
        field.presence == .required && (members.lookup field.name).isNone with
    | some field => throw (.missingField field.name)
    | none => return record
  | .array items => do
    let record ← fillInOrder name fields.length 0 fields items blank
    if fields.length < items.length then throw (.tooLong items.length)
    return record
  | found => throw (.wrongShape found (.record name))

end ClientGen.Json
