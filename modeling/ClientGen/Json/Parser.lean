import ClientGen.Json.Basic
import ClientGen.Number.Decimal
import ClientGen.Ordered

/-!
# Reading JSON text

The strict grammar: no comments, no trailing commas, no control characters inside a string and no
half of a surrogate pair. What reads a value from the start of a text also gives what is left
of the text. Values nest at most 127 deep. Of members with one name the last value
counts, at the place of the first. A number without a point and exponent that fits 64 bits is an
integer, except for `-0`; any other number is rounded to binary64 and refused beyond its range.
-/

namespace ClientGen.Json

/-- The deepest nesting of arrays and objects that is read. -/
def maxDepth : Nat := 127

/-- A blank between tokens. -/
def isSpace (c : Char) : Bool :=
  c == ' ' || c == '\n' || c == '\r' || c == '\t'

/-- The text from its first character that is not a blank. -/
def skipSpace (text : List Char) : List Char :=
  text.dropWhile isSpace

/-! ### Strings -/

/-- The value of a hexadecimal digit. -/
def hexDigit? (c : Char) : Option Nat :=
  if c.isDigit then some (c.toNat - '0'.toNat)
  else if 'a' ≤ c ∧ c ≤ 'f' then some (c.toNat - 'a'.toNat + 10)
  else if 'A' ≤ c ∧ c ≤ 'F' then some (c.toNat - 'A'.toNat + 10)
  else none

/-- The value of four hexadecimal digits. -/
def hex4? (a b c d : Char) : Option Nat := do
  return ((← hexDigit? a) * 16 + (← hexDigit? b)) * 256 + (← hexDigit? c) * 16 + (← hexDigit? d)

/-- The character an escape of one letter stands for. -/
def escaped? : Char → Option Char
  | '"' => some '"'
  | '\\' => some '\\'
  | '/' => some '/'
  | 'b' => some '\x08'
  | 'f' => some '\x0c'
  | 'n' => some '\n'
  | 'r' => some '\r'
  | 't' => some '\t'
  | _ => none

/-- The characters of a string up to its closing quote. -/
def stringBody : List Char → Option (List Char × List Char)
  | '"' :: rest => some ([], rest)
  | '\\' :: 'u' :: a :: b :: c :: d :: rest =>
    match hex4? a b c d with
    | none => none
    | some high =>
      if 0xD800 ≤ high ∧ high < 0xDC00 then
        match rest with
        | '\\' :: 'u' :: e :: f :: g :: h :: after =>
          match hex4? e f g h with
          | none => none
          | some low =>
            if 0xDC00 ≤ low ∧ low < 0xE000 then
              let code := 0x10000 + (high - 0xD800) * 0x400 + (low - 0xDC00)
              (stringBody after).map fun (cs, left) => (Char.ofNat code :: cs, left)
            else none
        | _ => none
      else if 0xDC00 ≤ high ∧ high < 0xE000 then none
      else (stringBody rest).map fun (cs, left) => (Char.ofNat high :: cs, left)
  | '\\' :: e :: rest =>
    match escaped? e with
    | none => none
    | some c => (stringBody rest).map fun (cs, left) => (c :: cs, left)
  | c :: rest =>
    if c.toNat < 0x20 ∨ c = '\\' then none
    else (stringBody rest).map fun (cs, left) => (c :: cs, left)
  | [] => none

/-! ### Numbers -/

/-- The fraction of a number, point included: nothing, or a point and at least one digit. -/
def fraction : List Char → Option (List Char × List Char)
  | '.' :: rest =>
    let (digits, after) := Decimal.spanDigits rest
    if digits.isEmpty then none else some ('.' :: digits, after)
  | text => some ([], text)

/-- The exponent of a number: nothing, or a letter, perhaps a sign, and at least one digit. -/
def exponent (text : List Char) : Option (List Char × List Char) :=
  match text with
  | c :: rest =>
    if c = 'e' ∨ c = 'E' then
      let (sign, rest) := match rest with
        | '-' :: r => (['-'], r)
        | '+' :: r => (['+'], r)
        | r => ([], r)
      let (digits, after) := Decimal.spanDigits rest
      if digits.isEmpty then none else some (c :: sign ++ digits, after)
    else some ([], text)
  | [] => some ([], [])

/-- The value of a number: an integer if it is written as one and fits 64 bits. -/
def numberValue? (negative : Bool) (whole fraction exponent : List Char) : Option Json :=
  let n : Int := Decimal.digitsValue 0 whole
  let rounded := do
    let d ← Decimal.unsigned? (whole ++ fraction ++ exponent)
    return .float (← { d with negative := negative : Decimal }.toBinary64?)
  if !(fraction.isEmpty && exponent.isEmpty) then rounded
  else if negative then
    if n ≠ 0 ∧ n ≤ Nat.pow 2 63 then some (.int (-n)) else rounded
  else if n < Nat.pow 2 64 then some (.int n) else rounded

/-- A number at the start of a text. -/
def number (text : List Char) : Option (Json × List Char) :=
  let (negative, text) := match text with
    | '-' :: rest => (true, rest)
    | _ => (false, text)
  let (whole, rest) := match text with
    | '0' :: rest => (['0'], rest)
    | _ => Decimal.spanDigits text
  if whole.isEmpty then none
  else do
    let (fraction, rest) ← fraction rest
    let (exponent, rest) ← exponent rest
    let value ← numberValue? negative whole fraction exponent
    return (value, rest)

/-! ### Values -/

/-- The items of an array after its bracket and before a first item. The fuel bounds their number;
the length of the text is enough. -/
def items (value : List Char → Option (Json × List Char)) (fuel : Nat) (text : List Char) :
    Option (List Json × List Char) :=
  match fuel with
  | 0 => none
  | fuel + 1 => do
    let (item, rest) ← value text
    match skipSpace rest with
    | ',' :: rest =>
      let (more, rest) ← items value fuel (skipSpace rest)
      return (item :: more, rest)
    | ']' :: rest => return ([item], rest)
    | _ => none

/-- The members of an object from a first name on, put after `earlier` ones. The fuel bounds their
number; the length of the text is enough. -/
def members (value : List Char → Option (Json × List Char)) (fuel : Nat)
    (earlier : List (String × Json)) (text : List Char) :
    Option (List (String × Json) × List Char) :=
  match fuel, text with
  | fuel + 1, '"' :: text => do
    let (name, rest) ← stringBody text
    match skipSpace rest with
    | ':' :: rest =>
      let (item, rest) ← value (skipSpace rest)
      let earlier := Ordered.put earlier (String.ofList name) item
      match skipSpace rest with
      | ',' :: rest => members value fuel earlier (skipSpace rest)
      | '}' :: rest => return (earlier, rest)
      | _ => none
    | _ => none
  | _, _ => none

/-- A value at the start of a text, its arrays and objects nested at most `depth` deep. -/
def value : Nat → List Char → Option (Json × List Char)
  | _, '"' :: rest => (stringBody rest).map fun (cs, left) => (.string (String.ofList cs), left)
  | _, 'n' :: 'u' :: 'l' :: 'l' :: rest => some (.null, rest)
  | _, 't' :: 'r' :: 'u' :: 'e' :: rest => some (.bool true, rest)
  | _, 'f' :: 'a' :: 'l' :: 's' :: 'e' :: rest => some (.bool false, rest)
  | depth + 1, '[' :: rest =>
    match skipSpace rest with
    | ']' :: rest => some (.array [], rest)
    | text => (items (value depth) text.length text).map fun (list, left) => (.array list, left)
  | depth + 1, '{' :: rest =>
    match skipSpace rest with
    | '}' :: rest => some (.object [], rest)
    | text =>
      (members (value depth) text.length [] text).map fun (list, left) => (.object list, left)
  | _, text => number text

/-- The value that a whole text stands for. -/
def parse? (text : String) : Option Json :=
  match value maxDepth (skipSpace text.toList) with
  | some (result, rest) => if (skipSpace rest).isEmpty then some result else none
  | none => none

end ClientGen.Json
