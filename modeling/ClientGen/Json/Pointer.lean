import ClientGen.Json.Basic
import ClientGen.Reference
import ClientGen.Text.Pieces

/-!
# JSON pointers

The part of a value that a pointer names. The empty pointer names the whole value; any other starts
with a slash, and each of its segments names a member of an object or the place of an item.
-/

namespace ClientGen.Json

/-- The place an array segment names: digits without a superfluous zero in front. -/
def index? (segment : String) : Option Nat :=
  match segment.toList with
  | ['0'] => some 0
  | '0' :: _ => none
  | digits =>
    if digits.isEmpty || !digits.all Char.isDigit then none
    else some (digits.foldl (fun n c => 10 * n + (c.toNat - '0'.toNat)) 0)

/-- The part of a value that one segment names. -/
def child? (value : Json) (segment : String) : Option Json :=
  match value with
  | .object members => members.lookup segment
  | .array items => (index? segment).bind fun i => items[i]?
  | _ => none

/-- The segments of a pointer with their escapes resolved, if the text is a pointer. -/
def segments? (pointer : String) : Option (List String) :=
  match pointer.toList with
  | [] => some []
  | '/' :: rest =>
    some ((Text.pieces '/' rest).map fun piece => Reference.decodeSegment (String.ofList piece))
  | _ => none

/-- The part of a value at a pointer. -/
def at? (value : Json) (pointer : String) : Option Json :=
  (segments? pointer).bind fun segments => segments.foldlM child? value

end ClientGen.Json
