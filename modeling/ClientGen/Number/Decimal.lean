import ClientGen.Number.Binary64

/-!
# Decimal numbers

Reading a decimal number, rounding it to binary64, and the shortest decimal that reads back as a
given binary64 number. For one digit, two digits, and so on up to seventeen, the two neighbours of
the number on the decimal grid with so many digits are tried; the first grid with a neighbour that
rounds to the number wins, and of two such neighbours the nearer. Ties and the layout of the digits
are chosen where a text is written.
-/

namespace ClientGen

/-- The number `± digits · 10 ^ exponent`. -/
structure Decimal where
  negative : Bool
  digits : Nat
  exponent : Int
deriving DecidableEq, Repr

namespace Decimal

/-! ### Reading -/

/-- The value of decimal digits, read after those of `start`. -/
def digitsValue (start : Nat) (digits : List Char) : Nat :=
  digits.foldl (fun n c => 10 * n + (c.toNat - '0'.toNat)) start

/-- The digits at the start of a text, and what follows them. -/
def spanDigits (text : List Char) : List Char × List Char :=
  text.span Char.isDigit

/-- An exponent such as `e+21` that is the whole text; no text is the exponent zero. -/
def exponent? : List Char → Option Int
  | [] => some 0
  | c :: rest =>
    if c = 'e' ∨ c = 'E' then
      let (negative, digits) := match rest with
        | '-' :: r => (true, r)
        | '+' :: r => (false, r)
        | r => (false, r)
      if digits.isEmpty || !digits.all Char.isDigit then none
      else
        let n : Int := digitsValue 0 digits
        some (if negative then -n else n)
    else none

/-- A decimal number without a sign, as the whole text: digits with a point anywhere among them or
none at all, and an exponent if there is one. At least one digit has to be there. -/
def unsigned? (text : List Char) : Option Decimal :=
  let (whole, rest) := spanDigits text
  let (fraction, rest) := match rest with
    | '.' :: r => spanDigits r
    | r => ([], r)
  if whole.isEmpty && fraction.isEmpty then none
  else
    (exponent? rest).map fun e =>
      ⟨false, digitsValue (digitsValue 0 whole) fraction, e - fraction.length⟩

/-- A decimal number with at most one sign in front. -/
def ofChars? : List Char → Option Decimal
  | '-' :: rest => (unsigned? rest).map fun d => { d with negative := true }
  | '+' :: rest => unsigned? rest
  | text => unsigned? text

/-! ### Rounding -/

/-- How many digits a number has; zero has one. -/
def countDigits (n : Nat) : Nat :=
  (Nat.toDigits 10 n).length

/-- The nearest binary64 number, or none beyond the largest. Exponents far outside the range of
the format are decided without writing the power of ten out. -/
def toBinary64? (d : Decimal) : Option Binary64 :=
  let magnitude : Int := countDigits d.digits + d.exponent
  if d.digits = 0 then some (Binary64.zero d.negative)
  else if magnitude > 400 then none
  else if magnitude < -400 then some (Binary64.zero d.negative)
  else if d.exponent < 0 then Binary64.ofRatio d.negative d.digits (Nat.pow 10 d.exponent.natAbs)
  else Binary64.ofRatio d.negative (d.digits * Nat.pow 10 d.exponent.natAbs) 1

/-! ### The shortest decimal -/

/-- The numbers that round to a binary64 number, as an interval: `low / den` to `high / den` around
the number `value / den` itself, with its ends or without them. -/
structure Reach where
  low : Nat
  value : Nat
  high : Nat
  den : Nat
  closed : Bool

/-- The interval of a number: half way to each neighbour. The lower neighbour of a power of two is
nearer than the upper one. -/
def reach (x : Binary64) : Reach :=
  let m := 4 * x.mantissa
  let low := if x.mantissa = Nat.pow 2 52 ∧ x.exponent ≠ -1074 then m - 1 else m - 2
  let e := x.exponent - 2
  let up := if e < 0 then 1 else Nat.pow 2 e.natAbs
  let den := if e < 0 then Nat.pow 2 e.natAbs else 1
  ⟨low * up, m * up, (m + 2) * up, den, x.mantissa % 2 == 0⟩

/-- Whether `a / b` lies in the interval. -/
def Reach.contains (r : Reach) (a b : Nat) : Bool :=
  let lower := r.low * b
  let upper := r.high * b
  let point := a * r.den
  if r.closed then lower ≤ point && point ≤ upper else lower < point && point < upper

/-- The power of ten just above a positive number `num / den`. -/
def magnitudeOf (num den : Nat) : Int :=
  if den ≤ num then countDigits (num / den)
  else
    let k := countDigits (den / num)
    if den = num * Nat.pow 10 (k - 1) then 2 - (k : Int) else 1 - (k : Int)

/-- Which of two neighbours at the same distance stands for a number. -/
inductive Tie
  | up
  | even

/-- The point of the grid of multiples of `10 ^ position` that stands for a number, if one of the
number's neighbours on the grid rounds to it. -/
def onGrid? (tie : Tie) (r : Reach) (position : Int) : Option Nat :=
  let (up, down) : Nat × Nat :=
    if position < 0 then (Nat.pow 10 position.natAbs, 1) else (1, Nat.pow 10 position.natAbs)
  let num := r.value * up
  let den := r.den * down
  let below := num / den
  let above := below + 1
  let fits := fun n => r.contains (n * down) up
  let twice := 2 * (num % den)
  let nearerIsBelow := twice < den ||
    (twice == den && match tie with | .up => false | .even => below % 2 == 0)
  match fits below, fits above with
  | true, true => some (if nearerIsBelow then below else above)
  | true, false => some below
  | false, true => some above
  | false, false => none

/-- The number without zeros at its end, which become part of the exponent. At most `fuel` of them
are taken off. -/
def strip (fuel : Nat) (d : Decimal) : Decimal :=
  match fuel with
  | 0 => d
  | fuel + 1 =>
    if d.digits ≠ 0 ∧ d.digits % 10 = 0 then strip fuel ⟨d.negative, d.digits / 10, d.exponent + 1⟩
    else d

/-- The shortest decimal that rounds to a binary64 number, and the nearest of those. Seventeen
digits are always enough. -/
def shortest (tie : Tie) (x : Binary64) : Decimal :=
  if x.mantissa = 0 then ⟨x.negative, 0, 0⟩
  else
    let r := reach x
    let top := magnitudeOf r.value r.den
    match (List.range 17).findSome? fun (i : Nat) =>
        (onGrid? tie r (top - (i + 1))).map fun n => (n, top - (i + 1)) with
    | some (n, position) => strip 20 ⟨x.negative, n, position⟩
    | none => ⟨x.negative, 0, 0⟩

/-! ### Positional text -/

/-- A number of zeros. -/
def zeros (n : Nat) : List Char := List.replicate n '0'

/-- The digits of a decimal with the point at its place, without a sign: no point in an integer, and
a zero before the point of a number below one. -/
def positional (d : Decimal) : List Char :=
  let digits := Nat.toDigits 10 d.digits
  if 0 ≤ d.exponent then
    if d.digits = 0 then ['0'] else digits ++ zeros d.exponent.natAbs
  else
    let places := d.exponent.natAbs
    if places < digits.length then
      digits.take (digits.length - places) ++ '.' :: digits.drop (digits.length - places)
    else '0' :: '.' :: (zeros (places - digits.length) ++ digits)

/-! ### Text with a point or an exponent -/

/-- An integer with its sign. -/
def signed (n : Int) : List Char :=
  if n < 0 then '-' :: Nat.toDigits 10 n.natAbs else Nat.toDigits 10 n.natAbs

/-- The digits of a decimal with an exponent after them, and a point after the first of several. -/
def scientific (d : Decimal) : List Char :=
  match Nat.toDigits 10 d.digits with
  | [] => []
  | first :: rest =>
    let e := signed (d.exponent + rest.length)
    if rest.isEmpty then first :: 'e' :: e else first :: '.' :: (rest ++ 'e' :: e)

/-- The digits of a decimal so that it shows as no integer: with a point from `0.00001` up to below
`10 ^ 16`, and with an exponent outside of that. -/
def pointed (d : Decimal) : List Char :=
  let top : Int := countDigits d.digits + d.exponent
  if d.digits = 0 then ['0', '.', '0']
  else if -5 < top ∧ top ≤ 16 then
    if 0 ≤ d.exponent then positional d ++ ['.', '0'] else positional d
  else scientific d

end Decimal

/-- The text of a binary64 number in scripts: the shortest digits, a tie going up, written without
an exponent, and a minus sign also for the negative zero. -/
def Binary64.text (x : Binary64) : String :=
  let digits := (Decimal.shortest .up x).positional
  String.ofList (if x.negative then '-' :: digits else digits)

/-- The text of a binary64 number that tells it from an integer: the shortest digits, a tie going
to the even one, with a point or an exponent. -/
def Binary64.pointText (x : Binary64) : String :=
  let digits := (Decimal.shortest .even x).pointed
  String.ofList (if x.negative then '-' :: digits else digits)

end ClientGen
