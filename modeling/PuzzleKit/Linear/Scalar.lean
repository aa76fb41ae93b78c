/-!
# Scalars

Vectors and matrices are made of scalars: numbers that can be added, subtracted and multiplied.
Sums are taken from left to right, starting from the scalar that stands for the sum of no terms.
For doubles that is negative zero, which leaves every first term as it is, its sign included.
-/

set_option autoImplicit false

namespace PuzzleKit

/-- Numbers that vectors and matrices are made of. No laws are assumed: doubles have few. -/
class Scalar (α : Type) extends Add α, Sub α, Mul α where
  zero : α
  one : α
  minusOne : α
  emptySum : α

namespace Scalar

instance : Scalar Float where
  zero := 0.0
  one := 1.0
  minusOne := -1.0
  emptySum := -0.0

/-- The sum of some terms, from left to right. -/
def sum {α : Type} [Scalar α] (terms : List α) : α :=
  terms.foldl (fun total term => total + term) emptySum

end Scalar

end PuzzleKit
