import PuzzleKit.Proofs.Number.Arithmetic

/-!
# Rounding errors

The error of rounding is half a unit in the last of 53 binary digits, relative to the number that is
rounded. Only among the smallest numbers, which have fewer digits, it is no longer relative; but a
sum of doubles is exact there.
-/

set_option autoImplicit false

namespace PuzzleKit.Binary64

/-! ## Rounding once -/

/-- The unit of a number that is not among the smallest. -/
theorem exists_unit {magnitude : ℝ} (normal : leastNormal ≤ magnitude) :
    ∃ exponent : ℤ, finestExponent ≤ exponent ∧ 2 ^ 52 * 2 ^ exponent ≤ magnitude ∧
      magnitude < 2 ^ 53 * 2 ^ exponent := by
  have magnitudePos : 0 < magnitude := leastNormal_pos.trans_le normal
  let exponent := Int.log 2 magnitude - 52
  have below : (2 : ℝ) ^ Int.log 2 magnitude ≤ magnitude := by
    exact_mod_cast Int.zpow_log_le_self one_lt_two magnitudePos
  have above : magnitude < (2 : ℝ) ^ (Int.log 2 magnitude + 1) := by
    exact_mod_cast Int.lt_zpow_succ_log_self one_lt_two magnitude
  have least : (-1022 : ℤ) < Int.log 2 magnitude + 1 := by
    rw [← zpow_lt_zpow_iff_right₀ (one_lt_two : (1 : ℝ) < 2)]
    exact normal.trans_lt above
  refine ⟨exponent, by rw [finestExponent]; omega, ?_, ?_⟩
  · convert below using 1
    rw [← zpow_natCast, ← zpow_add₀ two_ne_zero]
    congr 1
    omega
  · convert above using 1
    rw [← zpow_natCast, ← zpow_add₀ two_ne_zero]
    congr 1
    omega

namespace IsRounding

variable {exact result : ℝ}

theorem abs_sub_le_of_normal (rounding : IsRounding exact result) (normal : leastNormal ≤ |exact|) :
    |result - exact| ≤ roundoff * |exact| := by
  obtain ⟨exponent, fine, full, fits⟩ := exists_unit normal
  calc |result - exact| ≤ 2 ^ exponent / 2 := rounding.abs_sub_le_half_unit fine fits
    _ = roundoff * (2 ^ 52 * 2 ^ exponent) := by
        rw [roundoff]
        ring
    _ ≤ roundoff * |exact| := mul_le_mul_of_nonneg_left full roundoff_pos.le

/-- The error is relative to the number, or to the smallest one that has all digits. -/
theorem abs_sub_le (rounding : IsRounding exact result) :
    |result - exact| ≤ roundoff * max |exact| leastNormal := by
  rcases le_total leastNormal |exact| with normal | small
  · rw [max_eq_left normal]
    exact rounding.abs_sub_le_of_normal normal
  · have fits : |exact| < 2 ^ 53 * 2 ^ finestExponent := by
      have unitPos : (0 : ℝ) < 2 ^ finestExponent := by positivity
      rw [leastNormal_eq] at small
      linarith
    rw [max_eq_right small]
    calc |result - exact| ≤ 2 ^ finestExponent / 2 :=
          rounding.abs_sub_le_half_unit le_rfl fits
      _ = roundoff * leastNormal := by
          rw [leastNormal_eq, roundoff]
          ring

end IsRounding

/-! ## Sums -/

/-- Every number of the grid is a whole number of the finest units. -/
theorem OnGrid.exists_finest {number : ℝ} (onGrid : OnGrid number) :
    ∃ count : ℤ, number = count * 2 ^ finestExponent := by
  obtain ⟨count, exponent, -, fine, rfl⟩ := onGrid
  obtain ⟨shift, rfl⟩ := Int.le.dest fine
  refine ⟨count * 2 ^ shift, ?_⟩
  rw [zpow_add₀ two_ne_zero, zpow_natCast]
  push_cast
  ring

/-- A small sum needs no rounding: it is a whole number of the finest units too. -/
theorem onGrid_add {left right : ℝ} (onLeft : OnGrid left) (onRight : OnGrid right)
    (small : |left + right| ≤ leastNormal) : OnGrid (left + right) := by
  obtain ⟨leftCount, rfl⟩ := onLeft.exists_finest
  obtain ⟨rightCount, rfl⟩ := onRight.exists_finest
  rw [← add_mul] at small ⊢
  refine ⟨leftCount + rightCount, finestExponent, ?_, le_rfl, by push_cast; rfl⟩
  have unitPos : (0 : ℝ) < 2 ^ finestExponent := by positivity
  rw [leastNormal_eq, abs_mul, abs_of_pos unitPos, mul_le_mul_iff_left₀ unitPos] at small
  have countLe : |leftCount + rightCount| ≤ 2 ^ 52 := by exact_mod_cast small
  omega

/-- The error of a sum is always relative. -/
theorem IsRounding.abs_sub_le_of_add {left right result : ℝ}
    (rounding : IsRounding (left + right) result) (onLeft : OnGrid left) (onRight : OnGrid right) :
    |result - (left + right)| ≤ roundoff * |left + right| := by
  rcases le_total leastNormal |left + right| with normal | small
  · exact rounding.abs_sub_le_of_normal normal
  · rw [rounding.eq_of_onGrid (onGrid_add onLeft onRight small), sub_self, abs_zero]
    exact mul_nonneg roundoff_pos.le (abs_nonneg _)

/-! ## Rounding near one -/

/-- No number of the grid lies between one and the next one. -/
theorem OnGrid.next_of_one_lt {number : ℝ} (onGrid : OnGrid number) (above : 1 < number) :
    1 + 2 * roundoff ≤ number := by
  obtain ⟨count, exponent, small, -, rfl⟩ := onGrid
  have unitPos : (0 : ℝ) < 2 ^ exponent := by positivity
  have coarse : -52 ≤ exponent := by
    by_contra! finer
    have countLe : (count : ℝ) ≤ 2 ^ 53 := by exact_mod_cast (le_abs_self count).trans small
    have atMostOne : (count : ℝ) * 2 ^ exponent ≤ 1 := by
      calc (count : ℝ) * 2 ^ exponent ≤ 2 ^ 53 * 2 ^ exponent := by gcongr
        _ ≤ 2 ^ 53 * 2 ^ (-53 : ℤ) := by
            gcongr
            · exact one_le_two
            · omega
        _ = 1 := by norm_num
    exact absurd above (not_lt.mpr atMostOne)
  obtain ⟨shift, rfl⟩ := Int.le.dest coarse
  have units : (count : ℝ) * 2 ^ (-52 + (shift : ℤ)) =
      ((count * 2 ^ shift : ℤ) : ℝ) * (2 * roundoff) := by
    rw [zpow_add₀ two_ne_zero, zpow_natCast, roundoff]
    push_cast
    norm_num
    ring
  rw [units] at above ⊢
  have whole : (2 : ℤ) ^ 52 < count * 2 ^ shift := by
    rw [roundoff] at above
    have scaled : (2 : ℝ) ^ 52 < ((count * 2 ^ shift : ℤ) : ℝ) := by linarith
    exact_mod_cast scaled
  have next : (2 : ℝ) ^ 52 + 1 ≤ ((count * 2 ^ shift : ℤ) : ℝ) := by exact_mod_cast whole
  calc 1 + 2 * roundoff = (2 ^ 52 + 1) * (2 * roundoff) := by
        rw [roundoff]
        norm_num
    _ ≤ ((count * 2 ^ shift : ℤ) : ℝ) * (2 * roundoff) := by
        have roundoffNonneg := roundoff_pos.le
        gcongr

theorem onGrid_next : OnGrid (1 + 2 * roundoff) := by
  refine ⟨2 ^ 52 + 1, -52, by norm_num, by decide, ?_⟩
  rw [roundoff]
  norm_num

/-- A number is rounded to at most one in magnitude if it is less than halfway to the next. -/
theorem IsRounding.abs_le_one_iff {exact result : ℝ} (rounding : IsRounding exact result)
    (noTie : |exact| ≠ 1 + roundoff) : |result| ≤ 1 ↔ |exact| < 1 + roundoff := by
  have roundingAbs := rounding.abs
  constructor
  · intro small
    by_contra! reached
    have above := lt_of_le_of_ne reached noTie.symm
    rcases le_total (1 + 2 * roundoff) |exact| with far | near
    · have resultGe := roundingAbs.ge_of_ge onGrid_next far
      linarith [roundoff_pos]
    · have nearest := roundingAbs.nearest _ onGrid_next
      rw [abs_of_nonneg (sub_nonneg.mpr near)] at nearest
      linarith [neg_abs_le (|result| - |exact|)]
  · intro below
    by_contra! above
    have resultGe := roundingAbs.onGrid.next_of_one_lt above
    rcases le_total |exact| 1 with small | large
    · exact absurd (roundingAbs.le_of_le onGrid_one small) (not_le.mpr above)
    · have nearest := roundingAbs.nearest 1 onGrid_one
      rw [abs_of_nonpos (sub_nonpos.mpr large)] at nearest
      linarith [le_abs_self (|result| - |exact|)]

/-- Of two doubles none is above the other by exactly half a unit of one, relative to it: that would
take one digit too many. -/
theorem OnGrid.ne_one_add_roundoff_mul {number other : ℝ} (onGrid : OnGrid number)
    (onGridOther : OnGrid other) (nonzero : other ≠ 0) : number ≠ (1 + roundoff) * other := by
  obtain ⟨count, exponent, small, fine, rfl⟩ := onGrid
  obtain ⟨shift, rfl⟩ := Int.le.dest fine
  obtain ⟨otherCount, rfl⟩ := onGridOther.exists_finest
  intro same
  have unitPos : (0 : ℝ) < 2 ^ finestExponent := by positivity
  have counts : (2 ^ 53 : ℤ) * (count * 2 ^ shift) = (2 ^ 53 + 1) * otherCount := by
    rw [zpow_add₀ two_ne_zero, zpow_natCast, roundoff] at same
    have cancelled : (count : ℝ) * 2 ^ shift = (1 + (1 / 2) ^ 53) * otherCount := by
      apply mul_right_cancel₀ unitPos.ne'
      linarith
    have scaled : (2 ^ 53 : ℝ) * (count * 2 ^ shift) = (2 ^ 53 + 1) * otherCount := by
      rw [cancelled]
      ring
    exact_mod_cast scaled
  have coprime : IsCoprime (2 ^ 53 + 1 : ℤ) 2 := ⟨1, -2 ^ 52, by norm_num⟩
  have dividesCount : (2 ^ 53 + 1 : ℤ) ∣ count := by
    have divides : (2 ^ 53 + 1 : ℤ) ∣ 2 ^ 53 * (count * 2 ^ shift) := ⟨otherCount, counts⟩
    exact coprime.pow_right.dvd_of_dvd_mul_right (coprime.pow_right.dvd_of_dvd_mul_left divides)
  have countZero : count = 0 := Int.eq_zero_of_abs_lt_dvd dividesCount (by omega)
  rw [countZero, zero_mul, mul_zero] at counts
  have otherZero : otherCount = 0 := by omega
  exact nonzero (by rw [otherZero, Int.cast_zero, zero_mul])

end PuzzleKit.Binary64
