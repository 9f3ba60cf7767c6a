import ClientGen.Json.Basic
import ClientGen.Number.Decimal
import ClientGen.Ordered
import ClientGen.Text.Join
import ClientGen.Text.Shown

/-!
# YAML values

The values of a YAML document, when two of them are the same key of a mapping (`Value.same`), how a
value is shown in messages, and the JSON value it stands for (`Value.toJson`). An integer is never
the same key as a number with a point.
-/

namespace ClientGen.Yaml

/-- A number with a point, one of the two infinities, or no number at all. -/
inductive Real
  | finite (value : Binary64)
  | infinite (negative : Bool)
  | nan
deriving DecidableEq, Repr

/-- A value. -/
inductive Value
  | null
  | bool (value : Bool)
  | int (value : Int)
  | real (value : Real)
  | string (value : String)
  | sequence (items : List Value)
  /-- Keys with values; no two keys are the same. -/
  | mapping (entries : List (Value × Value))
  /-- A value with a tag of its own, which is written after an exclamation mark. -/
  | tagged (tag : String) (value : Value)

/-! ### Keys -/

/-- Whether two numbers are the same key: the two zeros are. -/
def Real.same : Real → Real → Bool
  | .finite x, .finite y => x.same y
  | x, y => x == y

namespace Value

mutual

/-- Whether two values are the same key. The order of entries has no say in it. -/
def same : Value → Value → Bool
  | .null, .null => true
  | .bool x, .bool y => x == y
  | .int x, .int y => x == y
  | .real x, .real y => x.same y
  | .string x, .string y => x == y
  | .sequence items, .sequence items' => sameItems items items'
  | .mapping entries, .mapping entries' =>
    entries.length == entries'.length && sameEntries entries entries'
  | .tagged tag value, .tagged tag' value' => tag == tag' && value.same value'
  | _, _ => false

/-- Whether two lists of values are the same, one by one. -/
def sameItems : List Value → List Value → Bool
  | [], [] => true
  | item :: rest, item' :: rest' => item.same item' && sameItems rest rest'
  | _, _ => false

/-- Whether entries are all found among others. -/
def sameEntries : List (Value × Value) → List (Value × Value) → Bool
  | [], _ => true
  | (key, value) :: rest, others =>
    (others.any fun other => key.same other.1 && value.same other.2) && sameEntries rest others

end

/-! ### Text -/

end Value

/-- The number as a key or in a message. -/
def Real.text : Real → String
  | .finite value => value.pointText
  | .infinite negative => if negative then "-.inf" else ".inf"
  | .nan => ".nan"

namespace Value

/-- The text of a truth value. -/
def boolText (value : Bool) : String :=
  if value then "true" else "false"

mutual

/-- The value as messages show it. -/
def shown : Value → String
  | .null => "Null"
  | .bool value => "Bool(" ++ boolText value ++ ")"
  | .int value => "Number(" ++ toString value ++ ")"
  | .real value => "Number(" ++ value.text ++ ")"
  | .string value => "String(" ++ Text.shown value ++ ")"
  | .sequence items => "Sequence [" ++ Text.join ", " (shownItems items) ++ "]"
  | .mapping entries => "Mapping \x7b" ++ Text.join ", " (shownEntries entries) ++ "\x7d"
  | .tagged tag value => "TaggedValue \x7b tag: !" ++ tag ++ ", value: " ++ value.shown ++ " \x7d"

/-- Values as messages show them. -/
def shownItems : List Value → List String
  | [] => []
  | item :: rest => item.shown :: shownItems rest

/-- Entries as messages show them, with scalar keys as they are. -/
def shownEntries : List (Value × Value) → List String
  | [] => []
  | (key, value) :: rest =>
    let name := match key with
      | .bool value => boolText value
      | .int value => toString value
      | .real value => value.text
      | .string value => Text.shown value
      | _ => key.shown
    (name ++ ": " ++ value.shown) :: shownEntries rest

end

/-! ### JSON -/

/-- The name of a member, if a key has one. -/
def keyName? : Value → Option String
  | .string value => some value
  | .int value => some (toString value)
  | .real value => some value.text
  | .bool value => some (boolText value)
  | _ => none

mutual

/-- The JSON value, or the first key that is no name of a member. Of keys with one name the last
value counts, at the place of the first; infinities become `null` and tags are dropped. -/
def toJson : Value → Except Value Json
  | .null => .ok .null
  | .bool value => .ok (.bool value)
  | .int value => .ok (.int value)
  | .real (.finite value) => .ok (.float value)
  | .real _ => .ok .null
  | .string value => .ok (.string value)
  | .sequence items => (itemsToJson items).map .array
  | .mapping entries => (entriesToJson [] entries).map .object
  | .tagged _ value => value.toJson

/-- The JSON values of a list. -/
def itemsToJson : List Value → Except Value (List Json)
  | [] => .ok []
  | item :: rest => do
    let first ← item.toJson
    let others ← itemsToJson rest
    return first :: others

/-- Members with those of further entries. -/
def entriesToJson (members : List (String × Json)) :
    List (Value × Value) → Except Value (List (String × Json))
  | [] => .ok members
  | (key, value) :: rest =>
    match key.keyName? with
    | none => .error key
    | some name => do
      let json ← value.toJson
      entriesToJson (Ordered.put members name json) rest

end

end Value

end ClientGen.Yaml
