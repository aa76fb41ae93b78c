import PuzzleKit.Linear.Mat

/-!
# Transposed products

A product of matrices is turned over by turning over its factors and multiplying them the other way
round. No sum is rearranged for that: both ways add the same products in the same order from the
same start, and only the factors of each product change places. So it holds without any rounding
difference for doubles too, whose sums must not be rearranged. Of their arithmetic nothing is used
but that a product of two doubles does not depend on their order.
-/

set_option autoImplicit false

namespace PuzzleKit

/-! ## Products of two doubles -/

namespace Binary64

open Float.Model (UnpackedFloat Format)

theorem sign_mul_comm (left right : UnpackedFloat.Sign) : left * right = right * left := by
  cases left <;> cases right <;> rfl

/-- There is only one double that is no number, so its products need no reservation. -/
theorem unpacked_mul_comm (format : Format) (left right : UnpackedFloat) :
    left.mul format right = right.mul format left := by
  cases left with
  | notANumber => cases right <;> rfl
  | infinity sign =>
      cases right with
      | notANumber => rfl
      | infinity other => exact congrArg UnpackedFloat.infinity (sign_mul_comm sign other)
      | zero other => rfl
      | finite other mantissa exponent =>
          exact congrArg UnpackedFloat.infinity (sign_mul_comm sign other)
  | zero sign =>
      cases right with
      | notANumber => rfl
      | infinity other => rfl
      | zero other => exact congrArg UnpackedFloat.zero (sign_mul_comm sign other)
      | finite other mantissa exponent =>
          exact congrArg UnpackedFloat.zero (sign_mul_comm sign other)
  | finite sign mantissa exponent =>
      cases right with
      | notANumber => rfl
      | infinity other => exact congrArg UnpackedFloat.infinity (sign_mul_comm sign other)
      | zero other => exact congrArg UnpackedFloat.zero (sign_mul_comm sign other)
      | finite other otherMantissa otherExponent =>
          change UnpackedFloat.roundWithAccuracy format (sign * other) (mantissa * otherMantissa)
            (exponent + otherExponent) .exact = _
          rw [sign_mul_comm, Nat.mul_comm, Int.add_comm]
          rfl

theorem float_mul_comm (left right : Float) : left * right = right * left :=
  congrArg (fun product => Float.ofModel (Float.Model.pack product))
    (unpacked_mul_comm Format.binary64 left.toModel.unpack right.toModel.unpack)

end Binary64

/-! ## Rows and columns -/

section Layout

variable {α : Type} {m n : Nat}

namespace Mat

theorem transpose_transpose (matrix : Mat α m n) : matrix.transpose.transpose = matrix := by
  ext row column
  rw [entry_transpose, entry_transpose]

end Mat

namespace Vec

@[simp]
theorem entry_asRow (vector : Vec α n) (row : Fin 1) (column : Fin n) :
    vector.asRow.entry row column = vector.get column := by
  obtain rfl : row = 0 := Subsingleton.elim _ _
  rfl

@[simp]
theorem entry_asColumn (vector : Vec α n) (row : Fin n) (column : Fin 1) :
    vector.asColumn.entry row column = vector.get row := by
  obtain rfl : column = 0 := Subsingleton.elim _ _
  change (vector.components.map fun component => (⟨#v[component]⟩ : Vec α 1))[row].get 0 =
    vector.components[row]
  simp [Vec.get]

theorem transpose_asRow (vector : Vec α n) : vector.asRow.transpose = vector.asColumn := by
  ext row column
  rw [Mat.entry_transpose, entry_asRow, entry_asColumn]

end Vec

end Layout

/-! ## Turning products over -/

section Products

variable {α : Type} [Scalar α] {m n p : Nat}

theorem Vec.dot_comm_of_mul_comm (mul_comm : ∀ left right : α, left * right = right * left)
    (left right : Vec α n) : left.dot right = right.dot left := by
  have products : (fun index => left.get index * right.get index) =
      fun index => right.get index * left.get index :=
    funext fun index => mul_comm _ _
  rw [Vec.dot, Vec.dot, products]

theorem Vec.asRow_times_asColumn (left right : Vec α n) :
    left.asRow.times right.asColumn = Mat.ofFn fun _ _ => left.dot right := by
  ext row column
  simp only [Mat.entry_times, Mat.entry_ofFn, Vec.entry_asRow, Vec.entry_asColumn, Vec.dot]

theorem Mat.transpose_times_of_mul_comm
    (mul_comm : ∀ left right : α, left * right = right * left)
    (left : Mat α m n) (right : Mat α n p) :
    (left.times right).transpose = right.transpose.times left.transpose := by
  ext row column
  have products : (fun inner => left.entry column inner * right.entry inner row) =
      fun inner => right.transpose.entry row inner * left.transpose.entry inner column := by
    funext inner
    rw [entry_transpose, entry_transpose, mul_comm]
  rw [entry_transpose, entry_times, entry_times, products]

end Products

/-- Turning over, with doubles, to the last bit: a transposed product is the product of the
transposed factors the other way round, and a product of two vectors does not depend on their order
and is the entry of the product of a row and a column. Turning over twice changes nothing, and a
vector as a column is the vector as a row turned over. -/
theorem Mat.transpose_times_exactly {m n p : Nat} (left : Mat Float m n) (right : Mat Float n p)
    (first second : Vec Float n) :
    (left.times right).transpose = right.transpose.times left.transpose ∧
      first.dot second = second.dot first ∧
      first.asRow.times second.asColumn = Mat.ofFn (fun _ _ => first.dot second) ∧
      left.transpose.transpose = left ∧
      first.asColumn = first.asRow.transpose := by
  refine ⟨?_, ?_, ?_, ?_, ?_⟩
  · exact Mat.transpose_times_of_mul_comm Binary64.float_mul_comm left right
  · exact Vec.dot_comm_of_mul_comm Binary64.float_mul_comm first second
  · exact Vec.asRow_times_asColumn first second
  · exact Mat.transpose_transpose left
  · exact (Vec.transpose_asRow first).symm

end PuzzleKit
