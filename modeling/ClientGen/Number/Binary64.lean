/-!
# Finite binary64 numbers

A finite number of the format is `± mantissa · 2 ^ exponent`, with the mantissa below `2 ^ 53`, the
exponent at least `-1074`, and the mantissa at least `2 ^ 52` unless the exponent is the least one.
`ofRatio` rounds an exact quotient to the nearest such number, a tie to the even mantissa, and
refuses what lies beyond the largest.
-/

namespace ClientGen

/-- A finite binary64 number. -/
structure Binary64 where
  negative : Bool
  mantissa : Nat
  exponent : Int
deriving DecidableEq, Repr

namespace Binary64

/-- The zero of either sign. -/
def zero (negative : Bool) : Binary64 := ⟨negative, 0, -1074⟩

/-- Whether two numbers are the same number: the two zeros are. -/
def same (x y : Binary64) : Bool :=
  x == y || (x.mantissa == 0 && y.mantissa == 0)

/-- The quotient rounded to the nearest integer, a tie to the even one. -/
def roundDiv (num den : Nat) : Nat :=
  let q := num / den
  let twice := 2 * (num % den)
  if twice < den then q
  else if den < twice then q + 1
  else if q % 2 = 0 then q else q + 1

/-- `num / den` divided by `2 ^ e`, as a quotient. -/
def scaled (num den : Nat) (e : Int) : Nat × Nat :=
  if e < 0 then (num * Nat.pow 2 e.natAbs, den) else (num, den * Nat.pow 2 e.natAbs)

/-- The exponent of a positive quotient: the greatest that leaves at least 53 binary digits before
the point, but not below the least of the format. -/
def exponentOf (num den : Nat) : Int :=
  let guess : Int := (Nat.log2 num : Int) - (Nat.log2 den : Int) - 52
  let (a, b) := scaled num den guess
  let e := if a / b < Nat.pow 2 52 then guess - 1 else guess
  max e (-1074)

/-- The number nearest to `± num / den`, or none beyond the largest one. -/
def ofRatio (negative : Bool) (num den : Nat) : Option Binary64 :=
  if num = 0 then some (zero negative)
  else
    let e := exponentOf num den
    let (a, b) := scaled num den e
    let m := roundDiv a b
    let x : Binary64 :=
      if m = Nat.pow 2 53 then ⟨negative, Nat.pow 2 52, e + 1⟩ else ⟨negative, m, e⟩
    if x.exponent ≤ 971 then some x else none

/-- The number nearest to an integer, or none beyond the largest one. -/
def ofInt (n : Int) : Option Binary64 :=
  ofRatio (decide (n < 0)) n.natAbs 1

end Binary64

end ClientGen
