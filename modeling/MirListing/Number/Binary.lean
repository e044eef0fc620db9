/-!
# Binary floating point numbers

A number of a document that is not written as an integer is held as the nearest number `m · 2^e`
with a mantissa of at most 53 bits and an exponent from -1074 to 971.  Everything here is exact
arithmetic on natural numbers: `nearest` rounds a quotient, a tie going to the even mantissa,
`truncate` drops the fraction again, and `whole?` finds out whether there is one.
-/

namespace MirListing

/-- A binary floating point number. -/
inductive Binary
  /-- The number `± mantissa · 2^exponent`. -/
  | finite (negative : Bool) (mantissa : Nat) (exponent : Int)
  /-- Beyond the greatest finite number. -/
  | infinite (negative : Bool)
  /-- Not a number. -/
  | nan
deriving DecidableEq, Repr

namespace Binary

/-- The quotient of two numbers, rounded to the nearest, a tie to the even one. -/
def roundDiv (numerator denominator : Nat) : Nat :=
  let quotient := numerator / denominator
  let twice := 2 * (numerator % denominator)
  if twice < denominator then quotient
  else if denominator < twice then quotient + 1
  else quotient + quotient % 2

/-- The quotient counted in units of `2^exponent`, rounded. -/
def mantissaAt (numerator denominator : Nat) (exponent : Int) : Nat :=
  roundDiv (numerator * Nat.pow 2 (-exponent).toNat)
    (denominator * Nat.pow 2 exponent.toNat)

/-- The least exponent. -/
def leastExponent : Int := -1074

/-- The greatest exponent. -/
def greatestExponent : Int := 971

/-- A finite number, or infinity if its exponent is out of range. -/
def bounded (negative : Bool) (mantissa : Nat) (exponent : Int) : Binary :=
  if greatestExponent < exponent then .infinite negative else .finite negative mantissa exponent

/-- The number nearest to a positive quotient. -/
def nearest (negative : Bool) (numerator denominator : Nat) : Binary :=
  let exponent := max leastExponent ((numerator.log2 : Int) - denominator.log2 - 53)
  let mantissa := mantissaAt numerator denominator exponent
  if mantissa < Nat.pow 2 53 then bounded negative mantissa exponent
  else
    let mantissa := mantissaAt numerator denominator (exponent + 1)
    if mantissa < Nat.pow 2 53 then bounded negative mantissa (exponent + 1)
    else bounded negative (mantissa / 2) (exponent + 2)

/-- The number nearest to `digits · 10^scale`.  Scales far out of range are settled by the count of
digits alone. -/
def ofDecimal (negative : Bool) (digits : Nat) (scale : Int) : Binary :=
  let top := (Nat.toDigits 10 digits).length + scale
  if digits = 0 ∨ top < -400 then .finite negative 0 leastExponent
  else if 400 < top then .infinite negative
  else nearest negative (digits * Nat.pow 10 scale.toNat) (Nat.pow 10 (-scale).toNat)

/-- Zero of either sign. -/
def isZero : Binary → Bool
  | .finite _ mantissa _ => mantissa == 0
  | _ => false

/-- The integer part of a finite number. -/
def truncate (negative : Bool) (mantissa : Nat) (exponent : Int) : Int :=
  let whole : Nat := mantissa * Nat.pow 2 exponent.toNat / Nat.pow 2 (-exponent).toNat
  if negative then -whole else whole

/-- The number as an integer, if it is one. -/
def whole? : Binary → Option Int
  | .finite negative mantissa exponent =>
      if mantissa * Nat.pow 2 exponent.toNat % Nat.pow 2 (-exponent).toNat = 0 then
        some (truncate negative mantissa exponent)
      else none
  | _ => none

example : ofDecimal false 15 (-1) = nearest false 3 2 := by decide +kernel
example : nearest false 1 1 = .finite false (2 ^ 52) (-52) := by decide +kernel
example : ofDecimal false 1 400 = .infinite false := by decide +kernel
example : truncate true (2 ^ 52 + 2 ^ 51) (-52) = -1 := by decide +kernel
example : (ofDecimal true 20 (-1)).whole? = some (-2) := by decide +kernel
example : (ofDecimal true 25 (-1)).whole? = none := by decide +kernel

end Binary

end MirListing
