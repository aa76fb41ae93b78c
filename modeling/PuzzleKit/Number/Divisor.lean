/-!
# Divisors and multiples

The greatest common divisor and the least common multiple of numbers of 64 bits. A multiple that
has more than 64 bits is not given.
-/

set_option autoImplicit false

namespace PuzzleKit.Divisor

/-- The greatest common divisor; that of two zeros is zero. -/
def gcd (x y : UInt64) : UInt64 :=
  if y = 0 then x else gcd y (x % y)
termination_by y.toNat
decreasing_by
  rename_i nonzero
  have positive : 0 < y.toNat := Nat.pos_of_ne_zero fun zero => nonzero (UInt64.toNat_inj.mp zero)
  simpa [UInt64.toNat_mod] using Nat.mod_lt x.toNat positive

def product? (x y : UInt64) : Option UInt64 :=
  if x.toNat * y.toNat < UInt64.size then some (x * y) else none

/-- The least common multiple, if it has 64 bits; that of zero and any number is zero. -/
def lcm (x y : UInt64) : Option UInt64 :=
  let divisor := gcd x y
  if divisor = 0 then some 0 else product? (x / divisor) y

structure Summary where
  divisor : UInt64
  multiple : Option UInt64
deriving DecidableEq, Repr

namespace Summary

def empty : Summary :=
  ⟨0, some 1⟩

/-- Takes one more number into account. A multiple that is lost stays lost. -/
def insert (summary : Summary) (number : UInt64) : Summary :=
  ⟨gcd summary.divisor number, summary.multiple.bind fun multiple => lcm multiple number⟩

def ofList (numbers : List UInt64) : Summary :=
  numbers.foldl insert empty

/-- The summaries after each of some numbers, on top of a given one. -/
def running (summary : Summary) : List UInt64 → List Summary
  | [] => []
  | number :: numbers =>
      let next := summary.insert number
      next :: running next numbers

end Summary

end PuzzleKit.Divisor
