import MirListing.Number.Binary

/-!
# The shortest decimal form of a binary number

A finite number is written with the fewest digits that read back as the same number, and of the
forms with that many digits with the nearest one.  `shortest` looks for them on the decimal grids of
one, two, … seventeen digits: on each it tries the two neighbours of the number, and the first grid
with a neighbour inside the interval that rounds to the number wins.  Positional notation is kept
for numbers from `10^-4` up to below `10^16`; outside, the form has an exponent of at least two
digits and a sign.
-/

namespace MirListing.Binary

/-! ## The digits -/

/-- A positive number with the interval of the reals that round to it, over one denominator. -/
structure Interval where
  /-- The lower end. -/
  low : Nat
  /-- The number. -/
  mid : Nat
  /-- The upper end. -/
  high : Nat
  /-- The denominator of all three. -/
  unit : Nat
  /-- Whether the ends belong to the interval. -/
  closed : Bool

/-- The interval of `mantissa · 2^exponent`.  Below a power of two the spacing is half as wide. -/
def interval (mantissa : Nat) (exponent : Int) : Interval :=
  let scale := Nat.pow 2 exponent.toNat
  let below := if mantissa = Nat.pow 2 52 ∧ leastExponent < exponent then 1 else 2
  { low := (4 * mantissa - below) * scale
    mid := 4 * mantissa * scale
    high := (4 * mantissa + 2) * scale
    unit := 4 * Nat.pow 2 (-exponent).toNat
    closed := mantissa % 2 == 0 }

/-- Whether `count · 10^grid` lies in the interval. -/
def Interval.holds (i : Interval) (grid : Int) (count : Nat) : Bool :=
  let point := count * Nat.pow 10 grid.toNat * i.unit
  let scale := Nat.pow 10 (-grid).toNat
  if i.closed then i.low * scale ≤ point && point ≤ i.high * scale
  else i.low * scale < point && point < i.high * scale

/-- The number's neighbours on a grid: the count at or below it and the next one. -/
def Interval.countBelow (i : Interval) (grid : Int) : Nat :=
  i.mid * Nat.pow 10 (-grid).toNat / (i.unit * Nat.pow 10 grid.toNat)

/-- Whether the next count is nearer to the number than the one below it. -/
def Interval.isNearerAbove (i : Interval) (grid : Int) (count : Nat) : Bool :=
  let twice := 2 * i.mid * Nat.pow 10 (-grid).toNat
  let middle := (2 * count + 1) * i.unit * Nat.pow 10 grid.toNat
  middle < twice || (middle == twice && count % 2 == 1)

/-- The chosen neighbour on a grid, if one lies in the interval. -/
def Interval.pick? (i : Interval) (grid : Int) : Option Nat :=
  let count := i.countBelow grid
  match i.holds grid count, i.holds grid (count + 1) with
  | true, true => some (if i.isNearerAbove grid count then count + 1 else count)
  | true, false => some count
  | false, true => some (count + 1)
  | false, false => none

/-- The place of the decimal point: the number lies between the powers of ten below and at it. -/
def Interval.magnitude (i : Interval) : Int :=
  if i.unit ≤ i.mid then (Nat.toDigits 10 (i.mid / i.unit)).length
  else 1 - (Nat.toDigits 10 (i.unit / i.mid)).length

/-- The first grid of at most seventeen digits with a neighbour in the interval. -/
def Interval.search (i : Interval) : Nat × Int :=
  ((List.range 17).findSome? fun n =>
    let grid := i.magnitude - (n + 1 : Nat)
    (i.pick? grid).map fun count => (count, grid)).getD (0, 0)

/-- Shortest digits and the power of ten that the last of them counts. -/
def shortest (mantissa : Nat) (exponent : Int) : Nat × Int :=
  (interval mantissa exponent).search

/-! ## The written form -/

/-- Digits without the zeros at their end. -/
def trimZeros (digits : List Char) : List Char :=
  (digits.reverse.dropWhile (· == '0')).reverse

/-- The exponent of a form that is not positional. -/
def exponentText (exponent : Int) : List Char :=
  let digits := Nat.toDigits 10 exponent.natAbs
  (if exponent < 0 then '-' else '+') :: (List.replicate (2 - digits.length) '0' ++ digits)

/-- Digits with the decimal point at a place; `place` digits stand before the point. -/
def pointed (digits : List Char) (place : Int) : List Char :=
  if -4 ≤ place - 1 ∧ place - 1 < 16 then
    if place ≤ 0 then '0' :: '.' :: (List.replicate (-place).toNat '0' ++ digits)
    else
      let whole := digits.take place.toNat
      let fraction := digits.drop place.toNat
      whole ++ List.replicate (place.toNat - whole.length) '0' ++
        '.' :: (if fraction.isEmpty then ['0'] else fraction)
  else
    let fraction := digits.drop 1
    digits.take 1 ++ (if fraction.isEmpty then [] else '.' :: fraction) ++
      'e' :: exponentText (place - 1)

/-- The digits of a finite number with its point, without the sign. -/
def magnitudeText (mantissa : Nat) (exponent : Int) : List Char :=
  if mantissa = 0 then ['0', '.', '0']
  else
    let (count, grid) := shortest mantissa exponent
    let digits := Nat.toDigits 10 count
    pointed (trimZeros digits) (digits.length + grid)

/-- The written form of a number. -/
def text : Binary → String
  | .nan => "nan"
  | .infinite negative => if negative then "-inf" else "inf"
  | .finite negative mantissa exponent =>
      String.ofList (if negative then '-' :: magnitudeText mantissa exponent
        else magnitudeText mantissa exponent)

example : (ofDecimal false 1 (-1)).text = "0.1" := by decide +kernel
example : (ofDecimal false 5 (-324)).text = "5e-324" := by decide +kernel
example : (ofDecimal true 25 (-1)).text = "-2.5" := by decide +kernel
example : (ofDecimal false 1 16).text = "1e+16" := by decide +kernel
example : (ofDecimal false 123 13).text = "1230000000000000.0" := by decide +kernel

end MirListing.Binary
