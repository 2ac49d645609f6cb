import LiveRelay.Binary64

/-!
# The shortest decimal that reads back

A positive finite number is the nearest pattern to a whole interval of reals.
Its shortest decimal is the one with the fewest digits in that interval and,
among those, the one nearest to the number; an exact tie goes up.  On a given
decimal grid only the two neighbours of the number have to be tried: if any
point of the grid is in the interval, so is one of them.  Seventeen digits
are always enough.
-/

namespace LiveRelay

/-- The value `digits * 10 ^ exponent`. -/
structure Decimal where
  digits : Nat
  exponent : Int
  deriving DecidableEq, Inhabited, Repr

namespace Decimal

def digitCount (decimal : Decimal) : Nat :=
  (Nat.toDigits 10 decimal.digits).length

/-- The exponent of ten of the first digit. -/
def leadingExponent (decimal : Decimal) : Int :=
  decimal.exponent + decimal.digitCount - 1

/-- The reals `low / unit .. high / unit` round to the number `value / unit`;
the ends belong to the interval if `closed`. -/
structure Interval where
  low : Nat
  value : Nat
  high : Nat
  unit : Nat
  closed : Bool

namespace Interval

def ofBinary64 (number : Binary64) : Interval :=
  let lowerGap :=
    if number.fraction = 0 ∧ 1 < number.exponentField then 1 else 2
  let factor := 1 <<< (number.scale - 1077)
  { low := (4 * number.significand - lowerGap) * factor
    value := 4 * number.significand * factor
    high := (4 * number.significand + 2) * factor
    unit := 1 <<< (1077 - number.scale)
    closed := number.significand % 2 == 0 }

/-- Whether the point `numerator / denominator` is in the interval. -/
def contains (interval : Interval) (numerator denominator : Nat) : Bool :=
  if interval.closed then
    interval.low * denominator ≤ numerator * interval.unit &&
      numerator * interval.unit ≤ interval.high * denominator
  else
    interval.low * denominator < numerator * interval.unit &&
      numerator * interval.unit < interval.high * denominator

/-- The neighbours of the value on the grid of multiples of `10 ^ exponent`
are tried, the nearer one first. -/
def onGrid? (interval : Interval) (exponent : Int) : Option Decimal :=
  let up := Nat.pow 10 exponent.toNat
  let down := Nat.pow 10 (-exponent).toNat
  let step := up * interval.unit
  let scaled := interval.value * down
  let below := scaled / step
  let nearer := if 2 * (scaled % step) < step then below else below + 1
  let farther := if nearer = below then below + 1 else below
  if interval.contains (nearer * up) down then some ⟨nearer, exponent⟩
  else if interval.contains (farther * up) down then some ⟨farther, exponent⟩
  else none

/-- Grids from coarse to fine, `attempts` of them. -/
def search (interval : Interval) : (attempts : Nat) → Int → Decimal
  | 0, exponent => ⟨0, exponent⟩
  | attempts + 1, exponent =>
      match interval.onGrid? exponent with
      | some decimal => decimal
      | none => search interval attempts (exponent - 1)

/-- The exponent of ten of the value's first digit. -/
def leadingExponent (interval : Interval) : Int :=
  if interval.unit ≤ interval.value then
    ((Nat.toDigits 10 (interval.value / interval.unit)).length : Int) - 1
  else
    -((Nat.toDigits 10 ((interval.unit - 1) / interval.value)).length : Int)

end Interval

/-- Zeros at the end of the digits go into the exponent. -/
def trim : (places : Nat) → Decimal → Decimal
  | 0, decimal => decimal
  | places + 1, decimal =>
      if decimal.digits % 10 = 0 ∧ decimal.digits ≠ 0 then
        trim places ⟨decimal.digits / 10, decimal.exponent + 1⟩
      else decimal

/-- The shortest decimal of the magnitude of a finite number. -/
def shortest (number : Binary64) : Decimal :=
  if number.isZero then ⟨0, 0⟩
  else
    let interval := Interval.ofBinary64 number
    trim 17 (interval.search 17 interval.leadingExponent)

end Decimal

end LiveRelay
