import PuzzleKit.Number.Binary64
import PuzzleKit.Number.Decimal

/-!
# The shortest decimal of a double

Many decimals round to the same double. The one that is written has the fewest digits, and of those
with as few it is the one nearest to the double.
-/

set_option autoImplicit false

namespace PuzzleKit.Decimal

/-- The exponent of the leading digit of a positive quotient that is less than one: the first of
`-1, -2, …` whose power of ten the quotient reaches, `passed` of them having failed already. -/
def leadingBelowOne (numerator denominator passed : Nat) : Int :=
  if 0 < numerator ∧ numerator * 10 < denominator then
    leadingBelowOne (numerator * 10) denominator (passed + 1)
  else
    -(passed + 1)
termination_by denominator - numerator
decreasing_by omega

def leadingExponent (numerator denominator : Nat) : Int :=
  if denominator ≤ numerator then
    (digits (numerator / denominator)).length - 1
  else
    leadingBelowOne numerator denominator 0

/-- The numbers that a double stands for: a centre and two ends, counted in quarters of its unit,
and that quarter as a quotient. The ends belong to the interval if it is closed. -/
structure Interval where
  low : Nat
  centre : Nat
  high : Nat
  closed : Bool
  numerator : Nat
  denominator : Nat

/-- The interval of the reals that round to `significand * 2 ^ exponent`. It is closed exactly when
the significand is even, because ties go to even. Below a power of two the neighbouring double is
only half as far away. -/
def Interval.ofDyadic (significand : Nat) (exponent : Int) : Interval :=
  let gap := if significand = Nat.pow 2 52 ∧ exponent ≠ Binary64.finestExponent then 1 else 2
  let (numerator, denominator) := Binary64.inUnits 1 1 (2 - exponent)
  { low := 4 * significand - gap
    centre := 4 * significand
    high := 4 * significand + 2
    closed := significand % 2 == 0
    numerator := numerator
    denominator := denominator }

namespace Interval

/-- Whether `coefficient * 10 ^ exponent` rounds to the double of the interval. -/
def contains (interval : Interval) (coefficient : Nat) (exponent : Int) : Bool :=
  let (tenNumerator, tenDenominator) := powerOfTen exponent
  let point := coefficient * tenNumerator * interval.denominator
  let low := interval.low * interval.numerator * tenDenominator
  let high := interval.high * interval.numerator * tenDenominator
  if interval.closed then low ≤ point && point ≤ high else low < point && point < high

/-- The number on the grid of `10 ^ exponent` that rounds to the double of the interval and is
nearest to it, if there is one. Of two equally near the even coefficient is taken. -/
def onGrid? (interval : Interval) (exponent : Int) : Option Scaled :=
  let (tenNumerator, tenDenominator) := powerOfTen exponent
  let step := tenNumerator * interval.denominator
  let centre := interval.centre * interval.numerator * tenDenominator
  let below := centre / step
  let nearer := Binary64.roundQuotient centre step
  let farther := if nearer = below then below + 1 else below
  if interval.contains nearer exponent then some ⟨nearer, exponent⟩
  else if interval.contains farther exponent then some ⟨farther, exponent⟩
  else none

end Interval

/-- The decimal with the fewest digits that rounds to `significand * 2 ^ exponent`, the nearest of
those. It is looked for on ever finer grids, from one digit to seventeen. -/
def shortest? (significand : Nat) (exponent : Int) : Option Scaled :=
  let interval := Interval.ofDyadic significand exponent
  let leading :=
    leadingExponent (interval.centre * interval.numerator) interval.denominator
  let found := (List.range 17).findSome? fun (places : Nat) => interval.onGrid? (leading - places)
  found.map fun number => Scaled.normalize number.coefficient number.exponent

end PuzzleKit.Decimal
