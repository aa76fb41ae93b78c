import PuzzleKit.Linear.Vec
import PuzzleKit.Proofs.Number.RelativeError

/-!
# The error of a dot product

A dot product of doubles rounds every product and every partial sum. The errors add up to no more
than a small share of the sum of all magnitudes, where a magnitude among the smallest numbers counts
as the least normal one. No partial sum overflows if there is room for it and for the error.
-/

set_option autoImplicit false

namespace PuzzleKit

open Binary64 (real roundoff roundoff_pos leastNormal leastNormal_pos largest)

theorem Scalar.sum_ofFn_succ {α : Type} [Scalar α] {count : Nat} (term : Fin (count + 1) → α) :
    sum (List.ofFn term) =
      sum (List.ofFn fun index : Fin count => term index.castSucc) + term (Fin.last count) := by
  rw [List.ofFn_succ_last, sum, List.foldl_append]
  rfl

theorem Scalar.real_emptySum :
    (emptySum : Float).isFinite = true ∧ real (emptySum : Float) = 0 := by
  have found : (-0.0 : Float).toModel.unpack = .zero .negative := rfl
  exact ⟨Binary64.isFinite_of_unpack_zero found, Binary64.real_of_unpack_zero found⟩

theorem abs_add_le_of_near {sum term computedSum computedTerm sumError termError : ℝ}
    (sumNear : |computedSum - sum| ≤ sumError) (termNear : |computedTerm - term| ≤ termError) :
    |computedSum + computedTerm| ≤ |sum + term| + (sumError + termError) := by
  calc |computedSum + computedTerm|
      = |(sum + term) + ((computedSum - sum) + (computedTerm - term))| := by ring_nf
    _ ≤ |sum + term| + (sumError + termError) :=
        (abs_add_le _ _).trans (add_le_add le_rfl
          ((abs_add_le _ _).trans (add_le_add sumNear termNear)))

/-- One more product and one more sum, each with its own error. -/
theorem accumulated_error {error sum term magnitude scale computedSum computedTerm result : ℝ}
    {steps : Nat} (nonneg : 0 ≤ error) (sumLe : |sum| ≤ magnitude) (termLe : |term| ≤ scale)
    (sumNear : |computedSum - sum| ≤ ((1 + error) ^ (steps + 1) - 1) * magnitude)
    (termNear : |computedTerm - term| ≤ error * scale)
    (rounding : |result - (computedSum + computedTerm)| ≤ error * |computedSum + computedTerm|) :
    |result - (sum + term)| ≤ ((1 + error) ^ (steps + 2) - 1) * (magnitude + scale) := by
  have scaleNonneg : 0 ≤ scale := (abs_nonneg term).trans termLe
  have growth : 1 + error ≤ (1 + error) ^ (steps + 1) := by
    rw [pow_succ]
    exact le_mul_of_one_le_left (by linarith) (one_le_pow₀ (by linarith))
  have computedSumLe : |computedSum| ≤ (1 + error) ^ (steps + 1) * magnitude := by
    have triangle := abs_add_le (computedSum - sum) sum
    rw [sub_add_cancel] at triangle
    linarith
  have computedTermLe : |computedTerm| ≤ (1 + error) * scale := by
    have triangle := abs_add_le (computedTerm - term) term
    rw [sub_add_cancel] at triangle
    linarith
  calc |result - (sum + term)|
      = |(result - (computedSum + computedTerm)) +
          ((computedSum - sum) + (computedTerm - term))| := by ring_nf
    _ ≤ error * |computedSum + computedTerm| +
          (((1 + error) ^ (steps + 1) - 1) * magnitude + error * scale) :=
        (abs_add_le _ _).trans (add_le_add rounding
          ((abs_add_le _ _).trans (add_le_add sumNear termNear)))
    _ ≤ error * ((1 + error) ^ (steps + 1) * magnitude + (1 + error) * scale) +
          (((1 + error) ^ (steps + 1) - 1) * magnitude + error * scale) := by
        gcongr
        exact (abs_add_le _ _).trans (add_le_add computedSumLe computedTermLe)
    _ = ((1 + error) ^ (steps + 2) - 1) * magnitude + ((1 + error) * (1 + error) - 1) * scale := by
        ring
    _ ≤ ((1 + error) ^ (steps + 2) - 1) * magnitude +
          ((1 + error) ^ (steps + 1) * (1 + error) - 1) * scale := by
        gcongr
    _ = ((1 + error) ^ (steps + 2) - 1) * (magnitude + scale) := by ring

section Products

variable {count : Nat}

/-- The exact terms of a dot product. -/
noncomputable def exactTerm (left right : Fin count → Float) (index : Fin count) : ℝ :=
  real (left index) * real (right index)

/-- What the error of a term is relative to. -/
noncomputable def termScale (left right : Fin count → Float) (index : Fin count) : ℝ :=
  max |exactTerm left right index| leastNormal

def sumOfProducts (left right : Fin count → Float) : Float :=
  Scalar.sum (List.ofFn fun index => left index * right index)

/-- The share of all magnitudes that the error stays below. -/
noncomputable def errorShare (count : Nat) : ℝ :=
  (1 + roundoff) ^ (count + 1) - 1

theorem errorShare_nonneg (count : Nat) : 0 ≤ errorShare count :=
  sub_nonneg.mpr (one_le_pow₀ (by linarith [roundoff_pos]))

theorem errorShare_le_succ (count : Nat) : errorShare count ≤ errorShare (count + 1) :=
  sub_le_sub_right (pow_le_pow_right₀ (by linarith [roundoff_pos]) (Nat.le_succ _)) 1

theorem roundoff_le_errorShare (count : Nat) : roundoff ≤ errorShare count := by
  have growth : 1 + roundoff ≤ (1 + roundoff) ^ (count + 1) := by
    rw [pow_succ]
    exact le_mul_of_one_le_left (by linarith [roundoff_pos])
      (one_le_pow₀ (by linarith [roundoff_pos]))
  rw [errorShare]
  linarith

theorem sumOfProducts_succ (left right : Fin (count + 1) → Float) :
    sumOfProducts left right =
      sumOfProducts (fun index => left index.castSucc) (fun index => right index.castSucc) +
        left (Fin.last count) * right (Fin.last count) :=
  Scalar.sum_ofFn_succ _

theorem termScale_nonneg (left right : Fin count → Float) (index : Fin count) :
    0 ≤ termScale left right index :=
  (abs_nonneg _).trans (le_max_left _ _)

theorem sum_termScale_nonneg (left right : Fin count → Float) :
    0 ≤ ∑ index, termScale left right index :=
  Finset.sum_nonneg fun index _ => termScale_nonneg left right index

theorem abs_sum_term_le (left right : Fin count → Float) :
    |∑ index, exactTerm left right index| ≤ ∑ index, termScale left right index :=
  (Finset.abs_sum_le_sum_abs _ _).trans (Finset.sum_le_sum fun _ _ => le_max_left _ _)

theorem isFinite_of_sumOfProducts {left right : Fin count → Float}
    (finite : (sumOfProducts left right).isFinite = true) (index : Fin count) :
    (left index).isFinite = true ∧ (right index).isFinite = true := by
  induction count with
  | zero => exact index.elim0
  | succ count ih =>
      rw [sumOfProducts_succ] at finite
      obtain ⟨sumFinite, productFinite⟩ := Binary64.isFinite_of_add finite
      refine Fin.lastCases ?_ (fun index => ?_) index
      · exact Binary64.isFinite_of_mul productFinite
      · exact ih sumFinite index

/-- A finite sum of products is close to the exact one. -/
theorem sumOfProducts_error {left right : Fin count → Float}
    (finite : (sumOfProducts left right).isFinite = true) :
    |real (sumOfProducts left right) - ∑ index, exactTerm left right index| ≤
      errorShare count * ∑ index, termScale left right index := by
  induction count with
  | zero =>
      have empty : real (sumOfProducts left right) = 0 := Scalar.real_emptySum.2
      simp [empty]
  | succ count ih =>
      rw [sumOfProducts_succ] at finite ⊢
      obtain ⟨sumFinite, productFinite⟩ := Binary64.isFinite_of_add finite
      obtain ⟨leftFinite, rightFinite⟩ := Binary64.isFinite_of_mul productFinite
      have productRounding :=
        (Binary64.computed_mul leftFinite rightFinite).isRounding productFinite
      have sumRounding := (Binary64.computed_add sumFinite productFinite).isRounding finite
      rw [Fin.sum_univ_castSucc, Fin.sum_univ_castSucc]
      exact accumulated_error roundoff_pos.le (abs_sum_term_le _ _) (le_max_left _ _)
        (ih sumFinite) productRounding.abs_sub_le (sumRounding.abs_sub_le_of_add
          (Binary64.onGrid_real sumFinite) (Binary64.onGrid_real productFinite))

/-- Every sum of some of the terms leaves room for the error of the whole. -/
def LeavesRoom (left right : Fin count → Float) : Prop :=
  ∀ part : Finset (Fin count), |∑ index ∈ part, exactTerm left right index| +
    errorShare count * ∑ index, termScale left right index ≤ largest

theorem LeavesRoom.abs_term_le {left right : Fin count → Float}
    (room : LeavesRoom left right) (index : Fin count) :
    |exactTerm left right index| ≤ largest := by
  have fits := room {index}
  have errorNonneg := mul_nonneg (errorShare_nonneg count) (sum_termScale_nonneg left right)
  rw [Finset.sum_singleton] at fits
  exact (le_add_of_nonneg_right errorNonneg).trans fits

theorem LeavesRoom.init {left right : Fin (count + 1) → Float}
    (room : LeavesRoom left right) :
    LeavesRoom (fun index => left index.castSucc) (fun index => right index.castSucc) := by
  intro part
  have fits := room (part.map Fin.castSuccEmb)
  rw [Finset.sum_map, Fin.sum_univ_castSucc] at fits
  refine le_trans (add_le_add le_rfl ?_) fits
  refine mul_le_mul (errorShare_le_succ count) ?_ ?_ (errorShare_nonneg _)
  · exact le_add_of_nonneg_right (termScale_nonneg left right (Fin.last count))
  · exact sum_termScale_nonneg _ _

/-- The last sum does not overflow either: its terms are not farther from the exact ones than the
error. -/
theorem LeavesRoom.last_sum_le {left right : Fin (count + 1) → Float}
    (room : LeavesRoom left right) {computedSum computedTerm : ℝ}
    (sumNear : |computedSum - ∑ index : Fin count, exactTerm left right index.castSucc| ≤
      errorShare count * ∑ index : Fin count, termScale left right index.castSucc)
    (termNear : |computedTerm - exactTerm left right (Fin.last count)| ≤
      roundoff * termScale left right (Fin.last count)) :
    |computedSum + computedTerm| ≤ largest := by
  have fits := room Finset.univ
  have scalesNonneg : 0 ≤ ∑ index : Fin count, termScale left right index.castSucc :=
    sum_termScale_nonneg _ _
  have lastNonneg := termScale_nonneg left right (Fin.last count)
  have sumShare := mul_le_mul_of_nonneg_right (errorShare_le_succ count) scalesNonneg
  have termShare := mul_le_mul_of_nonneg_right (roundoff_le_errorShare (count + 1)) lastNonneg
  rw [Fin.sum_univ_castSucc, Fin.sum_univ_castSucc, mul_add] at fits
  refine (abs_add_le_of_near sumNear termNear).trans ?_
  linarith

theorem isFinite_sumOfProducts {left right : Fin count → Float}
    (leftFinite : ∀ index, (left index).isFinite = true)
    (rightFinite : ∀ index, (right index).isFinite = true) (room : LeavesRoom left right) :
    (sumOfProducts left right).isFinite = true := by
  induction count with
  | zero => exact Scalar.real_emptySum.1
  | succ count ih =>
      have sumFinite := ih (fun index => leftFinite index.castSucc)
        (fun index => rightFinite index.castSucc) room.init
      have product := Binary64.computed_mul (leftFinite (Fin.last count))
        (rightFinite (Fin.last count))
      have productFinite := product.isFinite (room.abs_term_le (Fin.last count))
      rw [sumOfProducts_succ]
      exact (Binary64.computed_add sumFinite productFinite).isFinite
        (room.last_sum_le (sumOfProducts_error sumFinite)
          (product.isRounding productFinite).abs_sub_le)

end Products

end PuzzleKit
