/-!
# Decimal notation

Decimal digits read as a number, the decimal digits of an integer, and decimals as a whole number
of units of a power of ten.
-/

set_option autoImplicit false

namespace PuzzleKit.Decimal

def digitValue (char : Char) : Nat :=
  char.toNat - '0'.toNat

def value (digits : List Char) : Nat :=
  digits.foldl (fun total digit => 10 * total + digitValue digit) 0

def digits (number : Nat) : List Char :=
  Nat.toDigits 10 number

def ofInt (number : Int) : List Char :=
  if number < 0 then '-' :: digits number.natAbs else digits number.natAbs

/-- A positive number in decimal: `coefficient` counts units of `10 ^ exponent`. -/
structure Scaled where
  coefficient : Nat
  exponent : Int
deriving DecidableEq, Repr

namespace Scaled

/-- Moves the trailing zeros of the coefficient into the exponent. -/
def normalize (coefficient : Nat) (exponent : Int) : Scaled :=
  if coefficient ≠ 0 ∧ coefficient % 10 = 0 then
    normalize (coefficient / 10) (exponent + 1)
  else
    ⟨coefficient, exponent⟩
termination_by coefficient
decreasing_by omega

end Scaled

def powerOfTen : Int → Nat × Nat
  | .ofNat exponent => (Nat.pow 10 exponent, 1)
  | .negSucc exponent => (1, Nat.pow 10 (exponent + 1))

end PuzzleKit.Decimal
