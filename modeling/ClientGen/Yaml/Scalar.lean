import ClientGen.Yaml.Value

/-!
# Plain scalars

What the text of a plain scalar stands for: `null`, a truth value, an integer in one of four bases,
a number with a point, or else the text itself. A number with superfluous zeros in front is a text.
An integer has to fit 64 bits, with or without a sign; one that does not, but fits 128 bits, is a
fault. The tag of a scalar type demands one of these readings.
-/

namespace ClientGen.Yaml

namespace Value

/-- A spelling of `null`. -/
def isNull (text : String) : Bool :=
  text == "null" || text == "Null" || text == "NULL" || text == "~"

/-- A truth value. -/
def readBool? (text : String) : Option Bool :=
  if text = "true" ∨ text = "True" ∨ text = "TRUE" then some true
  else if text = "false" ∨ text = "False" ∨ text = "FALSE" then some false
  else none

/-! ### Integers -/

/-- The value of a digit in any base up to sixteen. -/
def digit? (c : Char) : Option Nat :=
  if c.isDigit then some (c.toNat - '0'.toNat)
  else if 'a' ≤ c ∧ c ≤ 'f' then some (c.toNat - 'a'.toNat + 10)
  else if 'A' ≤ c ∧ c ≤ 'F' then some (c.toNat - 'A'.toNat + 10)
  else none

/-- The number that digits write in a base; there has to be one. -/
def readDigits? (base : Nat) (digits : List Char) : Option Nat :=
  if digits.isEmpty then none
  else
    digits.foldlM (fun n c =>
      (digit? c).bind fun d => if d < base then some (base * n + d) else none) 0

/-- A number in the base that its first two characters name. -/
def readBased? : List Char → Option Nat
  | '0' :: 'x' :: rest => readDigits? 16 rest
  | '0' :: 'o' :: rest => readDigits? 8 rest
  | '0' :: 'b' :: rest => readDigits? 2 rest
  | _ => none

/-- Whether there are only digits, and a zero in front of others. -/
def hasSpareZero : List Char → Bool
  | '0' :: digit :: rest => digit.isDigit && rest.all Char.isDigit
  | _ => false

/-- A number without a sign, in any base. -/
def readNatural? (text : List Char) : Option Nat :=
  match readBased? text with
  | some n => some n
  | none => if hasSpareZero text then none else readDigits? 10 text

/-- The sign of a number, which is true for a minus, and the text after it. -/
def splitSign : List Char → Bool × List Char
  | '-' :: rest => (true, rest)
  | '+' :: rest => (false, rest)
  | text => (false, text)

/-- What the text of an integer turns out to be. -/
inductive Integer
  /-- No integer, or one that does not fit 128 bits. -/
  | none
  | fits (value : Int)
  /-- An integer beyond 64 bits. -/
  | tooLarge

/-- The integer that a text writes. -/
def readInteger (text : List Char) : Integer :=
  let (negative, rest) := splitSign text
  match readNatural? rest with
  | Option.none => .none
  | some n =>
    if negative then
      if n ≤ Nat.pow 2 63 then .fits (-(n : Int))
      else if n ≤ Nat.pow 2 127 then .tooLarge
      else .none
    else if n < Nat.pow 2 64 then .fits n
    else if n < Nat.pow 2 128 then .tooLarge
    else .none

/-! ### Numbers with a point -/

/-- The number that a text writes with a point or an exponent, or as a word. -/
def readReal? (text : String) : Option Real :=
  let chars := text.toList
  let unsigned := match chars with
    | '+' :: rest => String.ofList rest
    | _ => text
  if unsigned = ".inf" ∨ unsigned = ".Inf" ∨ unsigned = ".INF" then some (.infinite false)
  else if text = "-.inf" ∨ text = "-.Inf" ∨ text = "-.INF" then some (.infinite true)
  else if text = ".nan" ∨ text = ".NaN" ∨ text = ".NAN" then some .nan
  else (Decimal.ofChars? chars).bind fun d => d.toBinary64?.map .finite

/-! ### Scalars -/

/-- The value of a plain scalar, if it has one. -/
def ofPlain? (text : String) : Option Value :=
  if text = "" ∨ isNull text then some .null
  else
    match readBool? text with
    | some value => some (.bool value)
    | none =>
      match readInteger text.toList with
      | .fits value => some (.int value)
      | .tooLarge => none
      | .none =>
        if hasSpareZero (splitSign text.toList).2 then some (.string text)
        else some ((readReal? text).elim (.string text) .real)

/-- The value of a scalar without a tag. -/
def ofScalar? (text : String) (plain : Bool) : Option Value :=
  if plain then ofPlain? text else some (.string text)

/-- What the tags of scalar types begin with. -/
def coreTag (name : String) : String :=
  "tag:yaml.org,2002:" ++ name

/-- The value of a scalar with a tag that is no tag of its own. -/
def ofTagged? (tag text : String) : Option Value :=
  if tag = coreTag "bool" then (readBool? text).map .bool
  else if tag = coreTag "int" then
    match readInteger text.toList with
    | .fits value => some (.int value)
    | _ => none
  else if tag = coreTag "float" then (readReal? text).map .real
  else if tag = coreTag "null" then if isNull text then some .null else none
  else some (.string text)

end Value

end ClientGen.Yaml
