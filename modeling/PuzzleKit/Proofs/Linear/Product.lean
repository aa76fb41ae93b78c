import Mathlib.Algebra.BigOperators.Fin
import Mathlib.Data.Matrix.Mul
import PuzzleKit.Linear.Mat

/-!
# Products of exact matrices

The elements of a commutative ring are exact scalars: no operation rounds, and the empty sum is zero.
Over them a stored matrix is a matrix in the sense of algebra, and the operations are those of
algebra too, for all sizes and with no rows or columns at all.
-/

set_option autoImplicit false

namespace PuzzleKit

namespace Scalar

variable {R : Type} [CommRing R]

scoped instance exact : Scalar R where
  zero := 0
  one := 1
  minusOne := -1
  emptySum := 0

/-- Without rounding the order of a sum does not matter. -/
theorem sum_ofFn {count : Nat} (term : Fin count → R) :
    Scalar.sum (List.ofFn term) = ∑ index, term index := by
  rw [← List.sum_ofFn, List.sum_eq_foldl]
  rfl

end Scalar

namespace Mat

open scoped Scalar

section Storage

variable {α : Type} {m n : Nat}

def toMatrix (matrix : Mat α m n) : Matrix (Fin m) (Fin n) α :=
  Matrix.of matrix.entry

@[simp]
theorem toMatrix_apply (matrix : Mat α m n) (row : Fin m) (column : Fin n) :
    matrix.toMatrix row column = matrix.entry row column :=
  rfl

theorem toMatrix_injective : Function.Injective (toMatrix : Mat α m n → Matrix (Fin m) (Fin n) α) :=
  fun _ _ same => ext fun row column => congrFun (congrFun same row) column

theorem toMatrix_transpose (matrix : Mat α m n) :
    matrix.transpose.toMatrix = matrix.toMatrix.transpose := by
  ext row column
  exact entry_transpose matrix row column

end Storage

variable {R : Type} [CommRing R] {m n p q : Nat}

theorem toMatrix_plus (left right : Mat R m n) :
    (left.plus right).toMatrix = left.toMatrix + right.toMatrix := by
  ext row column
  exact entry_plus left right row column

theorem toMatrix_scale (matrix : Mat R m n) (factor : R) :
    (matrix.scale factor).toMatrix = factor • matrix.toMatrix := by
  ext row column
  rw [toMatrix_apply, entry_scale]
  exact mul_comm _ _

theorem toMatrix_times (left : Mat R m n) (right : Mat R n p) :
    (left.times right).toMatrix = left.toMatrix * right.toMatrix := by
  ext row column
  rw [toMatrix_apply, entry_times, Scalar.sum_ofFn]
  rfl

theorem exists_identity (order : Nat) :
    ∃ one : Mat R (order + 1) (order + 1), identity (order + 1) = .ok one ∧ one.toMatrix = 1 := by
  refine ⟨_, rfl, ?_⟩
  ext row column
  rw [toMatrix_apply, entry_ofFn]
  rfl

/-- The laws of products, sums and multiples of matrices of matching sizes. A matrix of order zero
has no identity; every other identity leaves the matrices on both sides of it as they are, square or
not. -/
theorem product_laws (first other : Mat R m n) (second another : Mat R n p) (third : Mat R p q)
    (factor : R) (order : Nat) :
    (first.times second).times third = first.times (second.times third) ∧
    first.times (second.plus another) = (first.times second).plus (first.times another) ∧
    (first.plus other).times second = (first.times second).plus (other.times second) ∧
    (first.scale factor).times second = (first.times second).scale factor ∧
    (first.times second).scale factor = first.times (second.scale factor) ∧
    ∃ one : Mat R (order + 1) (order + 1), identity (order + 1) = .ok one ∧
      (∀ {width : Nat} (matrix : Mat R (order + 1) width), one.times matrix = matrix) ∧
      ∀ {height : Nat} (matrix : Mat R height (order + 1)), matrix.times one = matrix := by
  refine ⟨?_, ?_, ?_, ?_, ?_, ?_⟩
  · apply toMatrix_injective
    simp only [toMatrix_times, Matrix.mul_assoc]
  · apply toMatrix_injective
    simp only [toMatrix_times, toMatrix_plus, Matrix.mul_add]
  · apply toMatrix_injective
    simp only [toMatrix_times, toMatrix_plus, Matrix.add_mul]
  · apply toMatrix_injective
    simp only [toMatrix_times, toMatrix_scale, Matrix.smul_mul]
  · apply toMatrix_injective
    simp only [toMatrix_times, toMatrix_scale, Matrix.mul_smul]
  · obtain ⟨one, made, oneEq⟩ := exists_identity (R := R) order
    refine ⟨one, made, ?_, ?_⟩
    · intro width matrix
      apply toMatrix_injective
      rw [toMatrix_times, oneEq, Matrix.one_mul]
    · intro height matrix
      apply toMatrix_injective
      rw [toMatrix_times, oneEq, Matrix.mul_one]

end Mat

end PuzzleKit
