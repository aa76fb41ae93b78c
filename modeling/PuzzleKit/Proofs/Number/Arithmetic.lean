import PuzzleKit.Proofs.Number.Value

/-!
# Arithmetic of doubles

Products, sums, quotients and square roots of finite doubles are the exact results, rounded once.
A result is finite only if its operands are; a quotient may have an infinite divisor.
-/

set_option autoImplicit false

namespace PuzzleKit.Binary64

open Float.Model (UnpackedFloat Format totalExponent)
open Float.Model.UnpackedFloat

/-! ## Operands -/

theorem exists_hasMagnitude {number : Float} (finite : number.isFinite = true) :
    ∃ sign magnitude, HasMagnitude sign number.toModel.unpack magnitude ∧
      real number = signed sign magnitude := by
  obtain ⟨sign, found⟩ | ⟨sign, mantissa, exponent, positive, found⟩ := unpack_of_isFinite finite
  · exact ⟨sign, 0, found ▸ .zero, by rw [real_of_unpack_zero found, signed_zero]⟩
  · exact ⟨sign, _, found ▸ .finite (canonical_of_unpack found), real_of_unpack_finite found⟩

theorem Computed.of_zero (sign : Sign) :
    Computed 0 (Float.ofModel (Float.Model.pack (.zero sign))) := by
  have computed := Computed.of_pack (.of_onGrid onGrid_zero) (.zero : HasMagnitude sign _ _)
  rwa [signed_zero] at computed

/-- A finite result of 53 digits, or in the finest unit, has no digits to be added. -/
theorem le_targetExponent {mantissa : Nat} {exponent : ℤ}
    (filled : 2 ^ 52 ≤ mantissa ∨ exponent ≤ finestExponent) :
    exponent ≤ Format.binary64.targetExponent (totalExponent mantissa exponent) := by
  have targetDef : Format.binary64.targetExponent (totalExponent mantissa exponent) =
      max (mantissa.log2 + 1 + exponent - 53) finestExponent := rfl
  rw [targetDef]
  rcases filled with full | finest
  · have digits : 52 ≤ mantissa.log2 :=
      (Nat.le_log2 (Nat.ne_of_gt (lt_of_lt_of_le (by decide) full))).mpr full
    omega
  · exact le_max_of_le_right finest

section Operations

variable {sign other : Sign} {parts otherParts : UnpackedFloat} {magnitude otherMagnitude : ℝ}

theorem HasMagnitude.nonneg (hasMagnitude : HasMagnitude sign parts magnitude) : 0 ≤ magnitude := by
  cases hasMagnitude <;> positivity

theorem HasMagnitude.onGrid (hasMagnitude : HasMagnitude sign parts magnitude) :
    OnGrid magnitude := by
  cases hasMagnitude with
  | zero => exact onGrid_zero
  | finite canonical => exact canonical.onGrid

theorem HasMagnitude.abs (hasMagnitude : HasMagnitude sign parts magnitude) :
    HasMagnitude .positive parts.abs magnitude := by
  cases hasMagnitude with
  | zero => exact .zero
  | finite canonical => exact .finite canonical

/-! ## Products -/

theorem HasMagnitude.computed_mul (onLeft : HasMagnitude sign parts magnitude)
    (onRight : HasMagnitude other otherParts otherMagnitude) :
    Computed (signed (sign * other) (magnitude * otherMagnitude))
      (Float.ofModel (Float.Model.pack (parts.mul Format.binary64 otherParts))) := by
  cases onLeft with
  | zero =>
      rw [zero_mul, signed_zero]
      cases onRight <;> exact .of_zero _
  | @finite mantissa exponent positive canonical =>
      cases onRight with
      | zero =>
          rw [mul_zero, signed_zero]
          exact .of_zero _
      | @finite otherMantissa otherExponent otherPositive otherCanonical =>
          have filled : 2 ^ 52 ≤ mantissa * otherMantissa ∨
              exponent + otherExponent ≤ finestExponent := by
            have finestEq : finestExponent = -1074 := rfl
            rcases canonical.full, otherCanonical.full with ⟨full | finest, otherFull | otherFinest⟩
            · exact .inl (full.trans (Nat.le_mul_of_pos_right _ otherPositive))
            · exact .inl (full.trans (Nat.le_mul_of_pos_right _ otherPositive))
            · exact .inl (otherFull.trans (Nat.le_mul_of_pos_left _ positive))
            · exact .inr (by omega)
          obtain ⟨rounded, rounding, hasMagnitude⟩ := roundWithAccuracy_isRounding (sign * other)
            (.exact_mantissa (mantissa * otherMantissa)) (le_targetExponent filled)
          have exactEq : ((mantissa * otherMantissa : Nat) : ℝ) * 2 ^ (exponent + otherExponent) =
              mantissa * 2 ^ exponent * (otherMantissa * 2 ^ otherExponent) := by
            rw [zpow_add₀ two_ne_zero]
            push_cast
            ring
          rw [exactEq] at rounding
          exact .of_pack rounding hasMagnitude

/-! ## Sums -/

/-- With a finer unit a number has more of them. -/
theorem signed_decreaseExponent (sign : Sign) (mantissa : Nat) {exponent target : ℤ}
    (finer : target ≤ exponent) :
    ((sign.apply ((decreaseExponent mantissa exponent target).1 : ℤ) : ℤ) : ℝ) * 2 ^ target =
      signed sign (mantissa * 2 ^ exponent) := by
  obtain ⟨shift, rfl⟩ := Int.le.dest finer
  have shiftEq : (target + shift - target).toNat = shift := by omega
  have units : ((decreaseExponent mantissa (target + shift) target).1 : ℝ) * 2 ^ target =
      mantissa * 2 ^ (target + shift) := by
    rw [decreaseExponent, shiftEq, Nat.shiftLeft_eq, zpow_add₀ two_ne_zero, zpow_natCast]
    push_cast
    ring
  rw [← units]
  cases sign
  · rw [Sign.apply, signed]
    push_cast
    ring
  · rw [Sign.apply, signed]
    push_cast
    rfl

/-- Zero digits behind a mantissa do not change which unit the number needs. -/
theorem round_isRounding (sign : Sign) {mantissa : Nat} (positive : 0 < mantissa) (exponent : ℤ) :
    ∃ magnitude, IsRounding (mantissa * 2 ^ exponent) magnitude ∧
      HasMagnitude sign (round Format.binary64 sign mantissa exponent) magnitude := by
  let target := Format.binary64.targetExponent (totalExponent mantissa exponent)
  let shift := (exponent - target).toNat
  have sameTarget : Format.binary64.targetExponent
      (totalExponent (mantissa * 2 ^ shift) (exponent - shift)) = target := by
    rw [totalExponent, log2_mul_two_pow positive]
    change _ = Format.binary64.targetExponent (mantissa.log2 + 1 + exponent)
    congr 1
    push_cast
    ring
  obtain ⟨rounded, rounding, hasMagnitude⟩ := roundWithAccuracy_isRounding sign
    (.exact_mantissa (mantissa * 2 ^ shift))
    (show exponent - shift ≤ _ by rw [sameTarget]; omega)
  have exactEq : ((mantissa * 2 ^ shift : Nat) : ℝ) * 2 ^ (exponent - shift) =
      mantissa * 2 ^ exponent := by
    rw [zpow_sub₀ two_ne_zero, zpow_natCast]
    push_cast
    field_simp
  rw [exactEq] at rounding
  rw [← Nat.shiftLeft_eq] at hasMagnitude
  exact ⟨rounded, rounding, hasMagnitude⟩

theorem computed_normalize (count exponent : ℤ) :
    Computed (count * 2 ^ exponent)
      (Float.ofModel (Float.Model.pack (normalize Format.binary64 count exponent .positive))) := by
  rcases lt_trichotomy count 0 with negative | rfl | positive
  · have filled : 0 < (-count).toNat := by omega
    obtain ⟨rounded, rounding, hasMagnitude⟩ := round_isRounding .negative filled exponent
    have computed := Computed.of_pack rounding hasMagnitude
    have countEq : (((-count).toNat : ℤ) : ℝ) = -count := by
      rw [Int.toNat_of_nonneg (by omega)]
      push_cast
      rfl
    rw [Int.cast_natCast] at countEq
    rw [signed, countEq, neg_mul, neg_neg] at computed
    rwa [UnpackedFloat.normalize, Int.compare_eq_lt.mpr negative]
  · rw [Int.cast_zero, zero_mul]
    exact .of_zero .positive
  · have filled : 0 < count.toNat := by omega
    obtain ⟨rounded, rounding, hasMagnitude⟩ := round_isRounding .positive filled exponent
    have computed := Computed.of_pack rounding hasMagnitude
    have countEq : ((count.toNat : ℤ) : ℝ) = count := by rw [Int.toNat_of_nonneg positive.le]
    rw [Int.cast_natCast] at countEq
    rw [signed, countEq] at computed
    rwa [UnpackedFloat.normalize, Int.compare_eq_gt.mpr positive]

/-- An operand that is packed again is the result of no operation. -/
theorem HasMagnitude.computed (hasMagnitude : HasMagnitude sign parts magnitude) :
    Computed (signed sign magnitude) (Float.ofModel (Float.Model.pack parts)) :=
  .of_pack (.of_onGrid hasMagnitude.onGrid) hasMagnitude

theorem HasMagnitude.computed_add (onLeft : HasMagnitude sign parts magnitude)
    (onRight : HasMagnitude other otherParts otherMagnitude) :
    Computed (signed sign magnitude + signed other otherMagnitude)
      (Float.ofModel (Float.Model.pack (parts.add Format.binary64 otherParts))) := by
  cases onLeft with
  | zero =>
      rw [signed_zero, zero_add]
      cases onRight with
      | zero =>
          rw [signed_zero]
          cases sign <;> cases other <;> exact .of_zero _
      | finite canonical => exact (HasMagnitude.finite canonical).computed
  | @finite mantissa exponent positive canonical =>
      cases onRight with
      | zero =>
          rw [signed_zero, add_zero]
          exact (HasMagnitude.finite canonical).computed
      | @finite otherMantissa otherExponent otherPositive otherCanonical =>
          have computed := computed_normalize
            (sign.apply (decreaseExponent mantissa exponent (min exponent otherExponent)).1 +
              other.apply (decreaseExponent otherMantissa otherExponent
                (min exponent otherExponent)).1)
            (min exponent otherExponent)
          rw [Int.cast_add, add_mul, signed_decreaseExponent sign mantissa (min_le_left _ _),
            signed_decreaseExponent other otherMantissa (min_le_right _ _)] at computed
          exact computed

/-! ## Quotients -/

/-- A mantissa with more digits is not below the power of two of its first digit. -/
theorem two_pow_log2_add_le {mantissa : Nat} (positive : 0 < mantissa) (shift : Nat) :
    2 ^ (mantissa.log2 + shift) ≤ mantissa * 2 ^ shift := by
  rw [pow_add]
  exact Nat.mul_le_mul_right _ (Nat.log2_self_le positive.ne')

/-- A quotient is a whole number and a remainder of the denominator. -/
theorem quotient_eq (numerator : Nat) {denominator : Nat} (positive : 0 < denominator) :
    (numerator : ℝ) / denominator =
      (numerator / denominator : Nat) + (numerator % denominator : Nat) / denominator := by
  have parts : (numerator : ℝ) =
      denominator * (numerator / denominator : Nat) + (numerator % denominator : Nat) := by
    exact_mod_cast (Nat.div_add_mod numerator denominator).symm
  have nonzero : (denominator : ℝ) ≠ 0 := Nat.cast_ne_zero.mpr positive.ne'
  field_simp
  linarith

theorem Represents.quotient (numerator : Nat) {denominator : Nat} (positive : 0 < denominator) :
    Represents (ExtendedMantissa.ofMantissaAndAccuracy (numerator / denominator)
        (accuracyOfFraction (numerator % denominator) denominator))
      (numerator / denominator) := by
  have positive' : (0 : ℝ) < denominator := by exact_mod_cast positive
  have below : ((numerator % denominator : Nat) : ℝ) / denominator < 1 := by
    rw [div_lt_one positive']
    exact_mod_cast Nat.mod_lt numerator positive
  rw [quotient_eq numerator positive, accuracyOfFraction]
  by_cases noneLeft : numerator % denominator = 0
  · rw [if_pos noneLeft, noneLeft, Nat.cast_zero, zero_div, add_zero]
    rfl
  · have someLeft : (0 : ℝ) < (numerator % denominator : Nat) / denominator := by
      have leftPos : 0 < numerator % denominator := Nat.pos_of_ne_zero noneLeft
      positivity
    rw [if_neg noneLeft]
    rcases lt_trichotomy (2 * (numerator % denominator)) denominator with less | equal | more
    · have half : ((numerator % denominator : Nat) : ℝ) / denominator < 1 / 2 := by
        rw [div_lt_div_iff₀ positive' two_pos, one_mul, mul_comm]
        exact_mod_cast less
      rw [Nat.compare_eq_lt.mpr less]
      exact ⟨by linarith, by linarith⟩
    · have half : ((numerator % denominator : Nat) : ℝ) / denominator = 1 / 2 := by
        rw [div_eq_div_iff positive'.ne' two_ne_zero, one_mul, mul_comm]
        exact_mod_cast equal
      rw [Nat.compare_eq_eq.mpr equal, half]
      change ((numerator / denominator : Nat) : ℝ) + 1 / 2 - (numerator / denominator : Nat) =
        (numerator / denominator : Nat) + 1 - ((numerator / denominator : Nat) + 1 / 2)
      ring
    · have half : 1 / 2 < ((numerator % denominator : Nat) : ℝ) / denominator := by
        rw [div_lt_div_iff₀ two_pos positive', one_mul, mul_comm]
        exact_mod_cast more
      rw [Nat.compare_eq_gt.mpr more]
      exact ⟨by linarith, by linarith⟩

/-- So many digits are added to the dividend that the quotient has 53 of them, unless its unit is
the finest then. -/
theorem quotient_filled {mantissa otherMantissa shift : Nat} {exponent otherExponent target : ℤ}
    (positive : 0 < mantissa) (otherPositive : 0 < otherMantissa)
    (shiftEq : target + shift = exponent - otherExponent)
    (targetLe : target ≤ Format.binary64.targetExponent
      (totalExponent mantissa exponent - totalExponent otherMantissa otherExponent)) :
    2 ^ 52 ≤ mantissa * 2 ^ shift / otherMantissa ∨ target ≤ finestExponent := by
  have targetLeMax : target ≤ max (mantissa.log2 + 1 + exponent -
      (otherMantissa.log2 + 1 + otherExponent) - 53) finestExponent := targetLe
  rcases le_max_iff.mp targetLeMax with fine | finest
  · left
    have digits : otherMantissa.log2 + 1 + 52 ≤ mantissa.log2 + shift := by omega
    rw [Nat.le_div_iff_mul_le otherPositive]
    calc 2 ^ 52 * otherMantissa ≤ 2 ^ 52 * 2 ^ (otherMantissa.log2 + 1) := by
          gcongr
          exact Nat.lt_log2_self.le
      _ = 2 ^ (otherMantissa.log2 + 1 + 52) := by rw [← pow_add, add_comm]
      _ ≤ 2 ^ (mantissa.log2 + shift) := Nat.pow_le_pow_right two_pos digits
      _ ≤ mantissa * 2 ^ shift := two_pow_log2_add_le positive shift
  · exact .inr finest

theorem HasMagnitude.computed_div (onLeft : HasMagnitude sign parts magnitude)
    (onRight : HasMagnitude other otherParts otherMagnitude) (nonzero : otherMagnitude ≠ 0) :
    Computed (signed (sign / other) (magnitude / otherMagnitude))
      (Float.ofModel (Float.Model.pack (parts.div Format.binary64 otherParts))) := by
  cases onRight with
  | zero => exact absurd rfl nonzero
  | @finite otherMantissa otherExponent otherPositive otherCanonical =>
      cases onLeft with
      | zero =>
          rw [zero_div, signed_zero]
          exact .of_zero _
      | @finite mantissa exponent positive canonical =>
          let target := min (exponent - otherExponent) (Format.binary64.targetExponent
            (totalExponent mantissa exponent - totalExponent otherMantissa otherExponent))
          let shift := (exponent - otherExponent - target).toNat
          have shiftEq : target + shift = exponent - otherExponent := by omega
          have filled := quotient_filled positive otherPositive shiftEq (min_le_right _ _)
          obtain ⟨rounded, rounding, hasMagnitude⟩ := roundWithAccuracy_isRounding (sign / other)
            (.quotient (mantissa * 2 ^ shift) otherPositive) (le_targetExponent filled)
          have exactEq : ((mantissa * 2 ^ shift : Nat) : ℝ) / otherMantissa * 2 ^ target =
              mantissa * 2 ^ exponent / (otherMantissa * 2 ^ otherExponent) := by
            have exponentEq : exponent = target + shift + otherExponent := by omega
            rw [exponentEq, zpow_add₀ two_ne_zero, zpow_add₀ two_ne_zero, zpow_natCast]
            push_cast
            field_simp
          rw [exactEq] at rounding
          rw [← Nat.shiftLeft_eq] at hasMagnitude
          exact .of_pack rounding hasMagnitude

/-! ## Square roots -/

theorem sqrt_lt_add_half {radicand root : Nat} (le : radicand ≤ root * root + root) :
    √(radicand : ℝ) < root + 1 / 2 := by
  have radicandLe : (radicand : ℝ) ≤ root * root + root := by exact_mod_cast le
  rw [Real.sqrt_lt' (by positivity)]
  linarith [show ((root : ℝ) + 1 / 2) ^ 2 = root * root + root + 1 / 4 by ring]

theorem add_half_lt_sqrt {radicand root : Nat} (lt : root * root + root < radicand) :
    (root : ℝ) + 1 / 2 < √radicand := by
  have ltRadicand : (root * root + root + 1 : ℝ) ≤ radicand := by exact_mod_cast lt
  rw [Real.lt_sqrt (by positivity)]
  linarith [show ((root : ℝ) + 1 / 2) ^ 2 = root * root + root + 1 / 4 by ring]

/-- A square root is never half a unit above a whole number. -/
theorem Represents.sqrt (radicand : Nat) :
    Represents (ExtendedMantissa.ofMantissaAndAccuracy radicand.sqrt
        (if radicand - radicand.sqrt * radicand.sqrt = 0 then .exact
          else .inexact
            (if radicand - radicand.sqrt * radicand.sqrt ≤ radicand.sqrt then .lt else .gt)))
      (√radicand) := by
  let root := radicand.sqrt
  have rootLe : root * root ≤ radicand := Nat.sqrt_le radicand
  have ltNext : radicand < (root + 1) * (root + 1) := Nat.lt_succ_sqrt radicand
  have rootNonneg : (0 : ℝ) ≤ root := Nat.cast_nonneg root
  change Represents (ExtendedMantissa.ofMantissaAndAccuracy root (if radicand - root * root = 0
    then .exact else .inexact (if radicand - root * root ≤ root then .lt else .gt))) (√radicand)
  by_cases square : radicand - root * root = 0
  · have radicandEq : radicand = root * root := by omega
    rw [if_pos square]
    change √(radicand : ℝ) = root
    rw [radicandEq, Nat.cast_mul, Real.sqrt_mul_self rootNonneg]
  · rw [if_neg square]
    by_cases less : radicand - root * root ≤ root
    · have above : (root : ℝ) < √radicand := by
        rw [Real.lt_sqrt rootNonneg, pow_two]
        exact_mod_cast (show root * root < radicand by omega)
      have below : √radicand < (root : ℝ) + 1 / 2 := sqrt_lt_add_half (by omega)
      rw [if_pos less]
      exact ⟨above, by linarith⟩
    · have above : (root : ℝ) + 1 / 2 < √radicand := add_half_lt_sqrt (by omega)
      have below : √radicand < (root : ℝ) + 1 := by
        rw [Real.sqrt_lt' (by positivity), pow_two]
        exact_mod_cast ltNext
      rw [if_neg less]
      exact ⟨by linarith, below⟩

theorem sqrt_filled {mantissa shift : Nat} {exponent target : ℤ} (positive : 0 < mantissa)
    (shiftEq : 2 * target + shift = exponent)
    (targetLe : target ≤ Format.binary64.targetExponent
      ((totalExponent mantissa exponent + 1).ediv 2)) :
    2 ^ 52 ≤ (mantissa * 2 ^ shift).sqrt ∨ target ≤ finestExponent := by
  have targetLeMax : target ≤
      max ((mantissa.log2 + 1 + exponent + 1) / 2 - 53) finestExponent := targetLe
  rcases le_max_iff.mp targetLeMax with fine | finest
  · left
    have digits : 52 + 52 ≤ mantissa.log2 + shift := by omega
    rw [Nat.le_sqrt]
    calc 2 ^ 52 * 2 ^ 52 = 2 ^ (52 + 52) := (pow_add 2 52 52).symm
      _ ≤ 2 ^ (mantissa.log2 + shift) := Nat.pow_le_pow_right two_pos digits
      _ ≤ mantissa * 2 ^ shift := two_pow_log2_add_le positive shift
  · exact .inr finest

theorem HasMagnitude.computed_sqrt (hasMagnitude : HasMagnitude sign parts magnitude)
    (nonneg : 0 ≤ signed sign magnitude) :
    Computed (√(signed sign magnitude))
      (Float.ofModel (Float.Model.pack (parts.sqrt Format.binary64))) := by
  cases hasMagnitude with
  | zero =>
      rw [signed_zero, Real.sqrt_zero]
      exact .of_zero sign
  | @finite mantissa exponent positive canonical =>
      have magnitudePos : (0 : ℝ) < mantissa * 2 ^ exponent := by positivity
      obtain rfl : sign = .positive := by
        cases sign with
        | negative => exact absurd nonneg (not_le.mpr (neg_neg_of_pos magnitudePos))
        | positive => rfl
      let target := min (exponent.ediv 2) (Format.binary64.targetExponent
        ((totalExponent mantissa exponent + 1).ediv 2))
      let shift := (exponent - 2 * target).toNat
      have targetLe : target ≤ exponent / 2 := min_le_left _ _
      have shiftEq : 2 * target + shift = exponent := by omega
      have filled := sqrt_filled positive shiftEq (min_le_right _ _)
      obtain ⟨rounded, rounding, roundedHasMagnitude⟩ := roundWithAccuracy_isRounding .positive
        (.sqrt (mantissa * 2 ^ shift)) (le_targetExponent filled)
      have exactEq : √((mantissa * 2 ^ shift : Nat) : ℝ) * 2 ^ target =
          √(mantissa * 2 ^ exponent) := by
        have unitNonneg : (0 : ℝ) ≤ 2 ^ target := by positivity
        rw [← Real.sqrt_mul_self unitNonneg, ← Real.sqrt_mul (Nat.cast_nonneg _), ← shiftEq,
          zpow_add₀ two_ne_zero, two_mul, zpow_add₀ two_ne_zero, zpow_natCast]
        push_cast
        ring_nf
      rw [exactEq] at rounding
      rw [← Nat.shiftLeft_eq] at roundedHasMagnitude
      exact .of_pack rounding roundedHasMagnitude

end Operations

section Floats

variable {left right : Float}

theorem computed_mul (leftFinite : left.isFinite = true) (rightFinite : right.isFinite = true) :
    Computed (real left * real right) (left * right) := by
  obtain ⟨sign, magnitude, onLeft, leftEq⟩ := exists_hasMagnitude leftFinite
  obtain ⟨other, otherMagnitude, onRight, rightEq⟩ := exists_hasMagnitude rightFinite
  rw [leftEq, rightEq, signed_mul]
  exact onLeft.computed_mul onRight

theorem computed_add (leftFinite : left.isFinite = true) (rightFinite : right.isFinite = true) :
    Computed (real left + real right) (left + right) := by
  obtain ⟨sign, magnitude, onLeft, leftEq⟩ := exists_hasMagnitude leftFinite
  obtain ⟨other, otherMagnitude, onRight, rightEq⟩ := exists_hasMagnitude rightFinite
  rw [leftEq, rightEq]
  exact onLeft.computed_add onRight

theorem computed_div (leftFinite : left.isFinite = true) (rightFinite : right.isFinite = true)
    (nonzero : real right ≠ 0) : Computed (real left / real right) (left / right) := by
  obtain ⟨sign, magnitude, onLeft, leftEq⟩ := exists_hasMagnitude leftFinite
  obtain ⟨other, otherMagnitude, onRight, rightEq⟩ := exists_hasMagnitude rightFinite
  rw [leftEq, rightEq, signed_div]
  refine onLeft.computed_div onRight fun zero => nonzero ?_
  rw [rightEq, zero, signed_zero]

theorem computed_sqrt {number : Float} (finite : number.isFinite = true)
    (nonneg : 0 ≤ real number) : Computed (√(real number)) number.sqrt := by
  obtain ⟨sign, magnitude, hasMagnitude, realEq⟩ := exists_hasMagnitude finite
  rw [realEq] at nonneg ⊢
  exact hasMagnitude.computed_sqrt nonneg

/-! ## Sizes -/

theorem abs_real_le_largest {number : Float} (finite : number.isFinite = true) :
    |real number| ≤ largest := by
  obtain ⟨sign, found⟩ | ⟨sign, mantissa, exponent, positive, found⟩ := unpack_of_isFinite finite
  · rw [real_of_unpack_zero found, abs_zero, largest]
    norm_num
  · have canonical := canonical_of_unpack found
    have small : exponent ≤ 971 := by
      by_contra! above
      have packed := unpack_pack_of_lt sign positive above
      rw [pack_eq_of_unpack_eq found, found] at packed
      cases packed
    rw [real_of_unpack_finite found, abs_signed, abs_of_nonneg (by positivity)]
    exact canonical.le_largest small

theorem real_abs {number : Float} (finite : number.isFinite = true) :
    number.abs.isFinite = true ∧ real number.abs = |real number| := by
  obtain ⟨sign, magnitude, hasMagnitude, realEq⟩ := exists_hasMagnitude finite
  have magnitudeEq : |real number| = magnitude := by
    rw [realEq, abs_signed, abs_of_nonneg hasMagnitude.nonneg]
  have small := abs_real_le_largest finite
  rw [magnitudeEq] at small ⊢
  refine hasMagnitude.abs.computed.real_eq hasMagnitude.onGrid ?_
  rwa [signed, abs_of_nonneg hasMagnitude.nonneg]

/-! ## Finite results -/

/-- What is not finite is packed as it is. -/
theorem isFinite_of_isFinite_pack {parts : UnpackedFloat}
    (finite : (Float.ofModel (Float.Model.pack parts)).isFinite = true) :
    parts.isFinite = true := by
  cases parts with
  | notANumber => exact absurd finite (by decide)
  | infinity sign => cases sign <;> exact absurd finite (by decide)
  | zero sign => rfl
  | finite sign mantissa exponent positive => rfl

theorem isFinite_of_add (finite : (left + right).isFinite = true) :
    left.isFinite = true ∧ right.isFinite = true := by
  have sumFinite :
      (left.toModel.unpack.add Format.binary64 right.toModel.unpack).isFinite = true :=
    isFinite_of_isFinite_pack finite
  change left.toModel.unpack.isFinite = true ∧ right.toModel.unpack.isFinite = true
  generalize left.toModel.unpack = parts, right.toModel.unpack = otherParts at sumFinite
  fun_cases UnpackedFloat.add <;> simp_all [UnpackedFloat.isFinite, UnpackedFloat.add]

theorem isFinite_of_mul (finite : (left * right).isFinite = true) :
    left.isFinite = true ∧ right.isFinite = true := by
  have productFinite :
      (left.toModel.unpack.mul Format.binary64 right.toModel.unpack).isFinite = true :=
    isFinite_of_isFinite_pack finite
  change left.toModel.unpack.isFinite = true ∧ right.toModel.unpack.isFinite = true
  generalize left.toModel.unpack = parts, right.toModel.unpack = otherParts at productFinite
  fun_cases UnpackedFloat.mul <;> simp_all [UnpackedFloat.isFinite, UnpackedFloat.mul]

/-- What is not finite stays so in a quotient, whatever it is divided by. -/
theorem isFinite_of_div (finite : (left / right).isFinite = true)
    (rightFinite : right.isFinite = true) : left.isFinite = true := by
  have quotientFinite :
      (left.toModel.unpack.div Format.binary64 right.toModel.unpack).isFinite = true :=
    isFinite_of_isFinite_pack finite
  change right.toModel.unpack.isFinite = true at rightFinite
  change left.toModel.unpack.isFinite = true
  generalize left.toModel.unpack = parts, right.toModel.unpack = otherParts at *
  fun_cases UnpackedFloat.div <;> simp_all [UnpackedFloat.isFinite, UnpackedFloat.div]

/-- A negative number has no square root. -/
theorem isFinite_of_sqrt {number : Float} (finite : number.sqrt.isFinite = true) :
    number.isFinite = true ∧ 0 ≤ real number := by
  have rootFinite : (number.toModel.unpack.sqrt Format.binary64).isFinite = true :=
    isFinite_of_isFinite_pack finite
  cases found : number.toModel.unpack with
  | notANumber =>
      rw [found] at rootFinite
      cases rootFinite
  | infinity sign =>
      rw [found] at rootFinite
      cases sign <;> cases rootFinite
  | zero sign => exact ⟨isFinite_of_unpack_zero found, (real_of_unpack_zero found).ge⟩
  | finite sign mantissa exponent positive =>
      refine ⟨isFinite_of_unpack_finite found, ?_⟩
      rw [real_of_unpack_finite found]
      cases sign with
      | negative =>
          rw [found] at rootFinite
          cases rootFinite
      | positive =>
          rw [signed]
          positivity

end Floats

end PuzzleKit.Binary64
