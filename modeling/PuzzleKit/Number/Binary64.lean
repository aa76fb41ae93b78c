/-!
# Double-precision numbers as exact fractions

A finite double is a whole number of units, the unit being a power of two. This module rounds an
exact quotient of natural numbers to the nearest double, a tie going to the even neighbour, and
takes a double apart again into its sign, its number of units and its unit.
-/

set_option autoImplicit false

namespace PuzzleKit.Binary64

/-- The quotient rounded to the nearest natural number; a half goes to the even neighbour. -/
def roundQuotient (numerator denominator : Nat) : Nat :=
  let quotient := numerator / denominator
  let remainder := numerator % denominator
  if 2 * remainder < denominator ∨ (2 * remainder = denominator ∧ quotient % 2 = 0) then
    quotient
  else
    quotient + 1

/-- The exponent of the finest unit: no double lies strictly between zero and `2 ^ -1074`. -/
def finestExponent : Int := -1074

/-- A quotient counted in units of `2 ^ exponent`, again as a quotient. -/
def inUnits (numerator denominator : Nat) : Int → Nat × Nat
  | .ofNat exponent => (numerator, denominator * Nat.pow 2 exponent)
  | .negSucc exponent => (numerator * Nat.pow 2 (exponent + 1), denominator)

/-- The exponent of the unit in which a positive quotient has a whole part of 53 binary digits,
or the finest exponent if that unit would be finer still. -/
def unitExponent (numerator denominator : Nat) : Int :=
  let estimate : Int := (numerator.log2 : Int) - denominator.log2 - 53
  let (scaledNumerator, scaledDenominator) := inUnits numerator denominator estimate
  let exponent :=
    if Nat.pow 2 53 * scaledDenominator ≤ scaledNumerator then estimate + 1 else estimate
  max finestExponent exponent

/-- The encoding of positive infinity, above that of every finite magnitude. -/
def infinityBits : Nat := 2047 * Nat.pow 2 52

/-- The encoding of the double nearest to a quotient. Consecutive doubles have consecutive
encodings, so a significand that rounds up to the next power of two needs no case of its own. -/
def magnitudeBits (numerator denominator : Nat) : Nat :=
  if numerator = 0 then
    0
  else
    let exponent := unitExponent numerator denominator
    let (scaledNumerator, scaledDenominator) := inUnits numerator denominator exponent
    min infinityBits
      ((exponent - finestExponent).toNat * Nat.pow 2 52 +
        roundQuotient scaledNumerator scaledDenominator)

/-- The double nearest to `numerator / denominator`, with the given sign also when it is zero. -/
def nearest (negative : Bool) (numerator denominator : Nat) : Float :=
  let magnitude := magnitudeBits numerator denominator
  Float.ofBits (UInt64.ofNat (if negative then Nat.pow 2 63 + magnitude else magnitude))

def ofInt (number : Int) : Float :=
  nearest (decide (number < 0)) number.natAbs 1

/-- A number of units of `2 ^ exponent`, with a sign that a zero keeps too. -/
structure Dyadic where
  negative : Bool
  significand : Nat
  exponent : Int
deriving DecidableEq, Repr

/-- The exact value of a finite double; the infinities and NaN have none. -/
def toDyadic? (number : Float) : Option Dyadic :=
  let bits := number.toBits.toNat
  let negative := decide (Nat.pow 2 63 ≤ bits)
  let field := bits / Nat.pow 2 52 % 2048
  let fraction := bits % Nat.pow 2 52
  if field = 2047 then
    none
  else if field = 0 then
    some ⟨negative, fraction, finestExponent⟩
  else
    some ⟨negative, Nat.pow 2 52 + fraction, finestExponent + Int.ofNat (field - 1)⟩

end PuzzleKit.Binary64
