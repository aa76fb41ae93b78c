import PuzzleKit.Proofs.Number.Arithmetic

/-!
# Comparing doubles

Finite doubles are compared as the numbers they stand for. Of two magnitudes the one with the
coarser unit is the larger, since it has all 53 digits in that unit.
-/

set_option autoImplicit false

namespace PuzzleKit.Binary64

open Float.Model (UnpackedFloat)
open Float.Model.UnpackedFloat

section Magnitudes

variable {mantissa otherMantissa : Nat} {exponent otherExponent : ℤ}

theorem Canonical.lt_of_exponent_lt (canonical : Canonical mantissa exponent)
    (otherCanonical : Canonical otherMantissa otherExponent) (finer : exponent < otherExponent) :
    (mantissa : ℝ) * 2 ^ exponent < otherMantissa * 2 ^ otherExponent := by
  have full : 2 ^ 52 ≤ otherMantissa := by
    refine otherCanonical.full.resolve_right fun finest => ?_
    have finestLe := canonical.finest_le
    omega
  calc (mantissa : ℝ) * 2 ^ exponent < 2 ^ 53 * 2 ^ exponent := by
        gcongr
        exact_mod_cast canonical.mantissa_lt
    _ ≤ 2 ^ 52 * 2 ^ otherExponent := digits_mul_unit_le finer
    _ ≤ otherMantissa * 2 ^ otherExponent := by
        gcongr
        exact_mod_cast full

/-- Units are compared first, and numbers of equal units after that. -/
theorem Canonical.compare_isLE_iff (canonical : Canonical mantissa exponent)
    (otherCanonical : Canonical otherMantissa otherExponent) :
    ((compare exponent otherExponent).then (compare mantissa otherMantissa)).isLE = true ↔
      (mantissa : ℝ) * 2 ^ exponent ≤ otherMantissa * 2 ^ otherExponent := by
  rcases lt_trichotomy exponent otherExponent with finer | rfl | coarser
  · have less := canonical.lt_of_exponent_lt otherCanonical finer
    rw [Int.compare_eq_lt.mpr finer]
    exact iff_of_true rfl less.le
  · have unitPos : (0 : ℝ) < 2 ^ exponent := by positivity
    rw [Int.compare_eq_eq.mpr rfl, Ordering.eq_then, Nat.isLE_compare,
      mul_le_mul_iff_left₀ unitPos, Nat.cast_le]
  · have less := otherCanonical.lt_of_exponent_lt canonical coarser
    rw [Int.compare_eq_gt.mpr coarser]
    exact iff_of_false Bool.false_ne_true (not_le.mpr less)

theorem Canonical.compare_swap_isLE_iff (canonical : Canonical mantissa exponent)
    (otherCanonical : Canonical otherMantissa otherExponent) :
    ((compare exponent otherExponent).then (compare mantissa otherMantissa)).swap.isLE = true ↔
      -((mantissa : ℝ) * 2 ^ exponent) ≤ -(otherMantissa * 2 ^ otherExponent) := by
  rw [Ordering.swap_then, Int.compare_swap, Nat.compare_swap, neg_le_neg_iff]
  exact otherCanonical.compare_isLE_iff canonical

end Magnitudes

theorem HasMagnitude.compare_isLE_iff {sign other : Sign} {parts otherParts : UnpackedFloat}
    {magnitude otherMagnitude : ℝ} (onLeft : HasMagnitude sign parts magnitude)
    (onRight : HasMagnitude other otherParts otherMagnitude) :
    (parts.compare otherParts).any (·.isLE) = true ↔
      signed sign magnitude ≤ signed other otherMagnitude := by
  cases onLeft with
  | zero =>
      rw [signed_zero]
      cases onRight with
      | zero =>
          rw [signed_zero]
          exact iff_of_true rfl le_rfl
      | @finite otherMantissa otherExponent otherPositive otherCanonical =>
          have otherPos : (0 : ℝ) < otherMantissa * 2 ^ otherExponent := by positivity
          cases other with
          | negative =>
              exact iff_of_false Bool.false_ne_true (not_le.mpr (neg_neg_of_pos otherPos))
          | positive => exact iff_of_true rfl otherPos.le
  | @finite mantissa exponent positive canonical =>
      have leftPos : (0 : ℝ) < mantissa * 2 ^ exponent := by positivity
      cases onRight with
      | zero =>
          rw [signed_zero]
          cases sign with
          | negative => exact iff_of_true rfl (neg_nonpos.mpr leftPos.le)
          | positive => exact iff_of_false Bool.false_ne_true (not_le.mpr leftPos)
      | @finite otherMantissa otherExponent otherPositive otherCanonical =>
          have otherPos : (0 : ℝ) < otherMantissa * 2 ^ otherExponent := by positivity
          have across := neg_neg_of_pos leftPos |>.trans otherPos
          have back := neg_neg_of_pos otherPos |>.trans leftPos
          cases sign <;> cases other
          · exact canonical.compare_swap_isLE_iff otherCanonical
          · exact iff_of_true rfl across.le
          · exact iff_of_false Bool.false_ne_true (not_le.mpr back)
          · exact canonical.compare_isLE_iff otherCanonical

theorem le_iff_compare (left right : Float) :
    left ≤ right ↔ (left.toModel.unpack.compare right.toModel.unpack).any (·.isLE) = true := by
  change decide (left.toModel.le right.toModel = true) = true ↔ _
  rw [decide_eq_true_iff]
  rfl

theorem le_iff_real_le {left right : Float} (leftFinite : left.isFinite = true)
    (rightFinite : right.isFinite = true) : left ≤ right ↔ real left ≤ real right := by
  obtain ⟨sign, magnitude, onLeft, leftEq⟩ := exists_hasMagnitude leftFinite
  obtain ⟨other, otherMagnitude, onRight, rightEq⟩ := exists_hasMagnitude rightFinite
  rw [leftEq, rightEq, le_iff_compare]
  exact onLeft.compare_isLE_iff onRight

theorem HasMagnitude.isFinite_of_between {lowSign highSign : Sign}
    {low parts high : UnpackedFloat} {lowMagnitude highMagnitude : ℝ}
    (onLow : HasMagnitude lowSign low lowMagnitude)
    (onHigh : HasMagnitude highSign high highMagnitude)
    (above : (low.compare parts).any (·.isLE) = true)
    (below : (parts.compare high).any (·.isLE) = true) : parts.isFinite = true := by
  cases parts with
  | zero sign => rfl
  | finite sign mantissa exponent positive => rfl
  | notANumber => cases onHigh <;> cases below
  | infinity sign =>
      cases sign with
      | negative => cases onLow <;> cases lowSign <;> cases above
      | positive => cases onHigh <;> cases highSign <;> cases below

/-- Only finite doubles lie between two finite ones. -/
theorem isFinite_of_between {low number high : Float} (lowFinite : low.isFinite = true)
    (highFinite : high.isFinite = true) (above : low ≤ number) (below : number ≤ high) :
    number.isFinite = true := by
  obtain ⟨lowSign, lowMagnitude, onLow, -⟩ := exists_hasMagnitude lowFinite
  obtain ⟨highSign, highMagnitude, onHigh, -⟩ := exists_hasMagnitude highFinite
  exact onLow.isFinite_of_between onHigh ((le_iff_compare low number).mp above)
    ((le_iff_compare number high).mp below)

end PuzzleKit.Binary64
