import ClientGen.Json.Basic
import ClientGen.Number.Decimal
import ClientGen.Text.Quoted

/-!
# Literal values

The scalar values that a schema can list or fix. Every JSON value but an array or an object has a
literal; an integer beyond 64 bits with a sign is a number. Numbers are told apart by value, so that
the two zeros are one.
-/

namespace ClientGen

/-- A scalar value. -/
inductive Literal
  | string (value : String)
  | int (value : Int)
  | number (value : Binary64)
  | bool (value : Bool)
  | null
deriving DecidableEq, Repr

namespace Literal

/-- The literal of a JSON value. -/
def ofJson? : Json → Option Literal
  | .null => some .null
  | .bool value => some (.bool value)
  | .int value =>
    if value < Nat.pow 2 63 then some (.int value) else (Binary64.ofInt value).map .number
  | .float value => some (.number value)
  | .string value => some (.string value)
  | .array _ => none
  | .object _ => none

/-- Whether two literals are the same value of the same kind. -/
def same : Literal → Literal → Bool
  | .number x, .number y => x.same y
  | x, y => x == y

/-- The literal in a script. -/
def text : Literal → String
  | .string value => Quoted.quote value
  | .int value => toString value
  | .number value => value.text
  | .bool value => if value then "true" else "false"
  | .null => "null"

end Literal

end ClientGen
