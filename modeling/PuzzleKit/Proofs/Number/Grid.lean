import Mathlib
import PuzzleKit.Number.Binary64

/-!
# Rounding real numbers to doubles

Every finite double is a whole number of at most 53 binary digits, counted in units none of which is
finer than the finest. These numbers are the grid; it has no upper end: overflow is a matter apart.
Rounding a number gives one of the grid that no other is nearer than. All that is used of rounding
follows from this: numbers of the grid are kept, limits of the grid are not passed, and the error is
at most half a unit.
-/

set_option autoImplicit false

namespace PuzzleKit.Binary64

/-! ## The grid -/

def OnGrid (number : ℝ) : Prop :=
  ∃ count exponent : ℤ, |count| ≤ 2 ^ 53 ∧ finestExponent ≤ exponent ∧ number = count * 2 ^ exponent

theorem onGrid_intCast {count : ℤ} (small : |count| ≤ 2 ^ 53) : OnGrid count :=
  ⟨count, 0, small, by decide, by rw [zpow_zero, mul_one]⟩

theorem onGrid_zero : OnGrid 0 := by
  have small : |(0 : ℤ)| ≤ 2 ^ 53 := by norm_num
  exact_mod_cast onGrid_intCast small

theorem onGrid_one : OnGrid 1 := by
  have small : |(1 : ℤ)| ≤ 2 ^ 53 := by norm_num
  exact_mod_cast onGrid_intCast small

theorem OnGrid.neg {number : ℝ} (onGrid : OnGrid number) : OnGrid (-number) := by
  obtain ⟨count, exponent, small, fine, rfl⟩ := onGrid
  exact ⟨-count, exponent, by rwa [abs_neg], fine, by push_cast; ring⟩

theorem OnGrid.abs {number : ℝ} (onGrid : OnGrid number) : OnGrid |number| := by
  rcases abs_choice number with same | turned
  · rwa [same]
  · rw [turned]
    exact onGrid.neg

/-- With all of its digits a number of a finer unit does not reach above the least number that has
them all in a coarser one. -/
theorem digits_mul_unit_le {exponent coarser : ℤ} (finer : exponent < coarser) :
    (2 : ℝ) ^ 53 * 2 ^ exponent ≤ 2 ^ 52 * 2 ^ coarser := by
  calc (2 : ℝ) ^ 53 * 2 ^ exponent = 2 ^ 52 * 2 ^ (exponent + 1) := by
        rw [zpow_add_one₀ two_ne_zero]
        ring
    _ ≤ 2 ^ 52 * 2 ^ coarser := by
        gcongr
        · exact one_le_two
        · exact finer

/-- A number of units that lies between two limits is counted by a whole number up to the limits. -/
theorem floor_units_bounds {exact : ℝ} {exponent : ℤ} (nonneg : 0 ≤ exact)
    (fits : exact < 2 ^ 53 * 2 ^ exponent) :
    0 ≤ ⌊exact / 2 ^ exponent⌋ ∧ ⌊exact / 2 ^ exponent⌋ < 2 ^ 53 := by
  have unitPos : (0 : ℝ) < 2 ^ exponent := by positivity
  refine ⟨Int.floor_nonneg.mpr (by positivity), Int.floor_lt.mpr ?_⟩
  rw [div_lt_iff₀ unitPos]
  exact_mod_cast fits

/-! ## Limits of doubles -/

/-- The largest double. -/
noncomputable def largest : ℝ :=
  (2 ^ 53 - 1) * 2 ^ (971 : ℤ)

theorem onGrid_largest : OnGrid largest :=
  ⟨2 ^ 53 - 1, 971, by norm_num, by decide, by rw [largest]; norm_num⟩

theorem two_pow_le_largest : 2 ^ 53 ≤ largest := by
  calc (2 : ℝ) ^ 53 ≤ (2 ^ 53 - 1) * 2 ^ (1 : ℤ) := by norm_num
    _ ≤ (2 ^ 53 - 1) * 2 ^ (971 : ℤ) := by
        refine mul_le_mul_of_nonneg_left ?_ (by norm_num)
        exact zpow_le_zpow_right₀ one_le_two (by decide)

/-- The relative error of rounding is at most this. -/
noncomputable def roundoff : ℝ :=
  (1 / 2) ^ 53

/-- The smallest number that has 53 binary digits in its unit. -/
noncomputable def leastNormal : ℝ :=
  2 ^ (-1022 : ℤ)

theorem roundoff_pos : 0 < roundoff := by
  rw [roundoff]
  positivity

theorem leastNormal_pos : 0 < leastNormal := by
  rw [leastNormal]
  positivity

theorem leastNormal_le_one : leastNormal ≤ 1 := by
  rw [leastNormal]
  exact zpow_le_one_of_nonpos₀ one_le_two (by decide)

theorem leastNormal_eq : leastNormal = 2 ^ 52 * 2 ^ finestExponent := by
  rw [leastNormal, finestExponent, ← zpow_natCast, ← zpow_add₀ two_ne_zero]
  norm_num

/-! ## Rounding -/

/-- A number of the grid, and no other is nearer to the exact number. -/
structure IsRounding (exact result : ℝ) : Prop where
  onGrid : OnGrid result
  nearest : ∀ other, OnGrid other → |result - exact| ≤ |other - exact|

namespace IsRounding

variable {exact result : ℝ}

theorem of_onGrid (onGrid : OnGrid exact) : IsRounding exact exact where
  onGrid := onGrid
  nearest other _ := by
    rw [sub_self, abs_zero]
    exact abs_nonneg _

theorem eq_of_onGrid (rounding : IsRounding exact result) (onGrid : OnGrid exact) :
    result = exact := by
  have near := rounding.nearest exact onGrid
  rw [sub_self, abs_zero] at near
  exact sub_eq_zero.mp (abs_nonpos_iff.mp near)

theorem neg (rounding : IsRounding exact result) : IsRounding (-exact) (-result) where
  onGrid := rounding.onGrid.neg
  nearest other onGrid := by
    have near := rounding.nearest (-other) onGrid.neg
    rw [← abs_neg, ← abs_neg (other - -exact)]
    convert near using 2 <;> ring

theorem le_of_le (rounding : IsRounding exact result) {limit : ℝ} (onGrid : OnGrid limit)
    (le : exact ≤ limit) : result ≤ limit := by
  have near := rounding.nearest limit onGrid
  rw [abs_of_nonneg (sub_nonneg.mpr le)] at near
  linarith [le_abs_self (result - exact)]

theorem ge_of_ge (rounding : IsRounding exact result) {limit : ℝ} (onGrid : OnGrid limit)
    (ge : limit ≤ exact) : limit ≤ result := by
  have turned := rounding.neg.le_of_le onGrid.neg (neg_le_neg ge)
  linarith

theorem abs_le (rounding : IsRounding exact result) {limit : ℝ} (onGrid : OnGrid limit)
    (le : |exact| ≤ limit) : |result| ≤ limit := by
  rw [abs_le'] at le ⊢
  refine ⟨rounding.le_of_le onGrid le.1, ?_⟩
  exact rounding.neg.le_of_le onGrid le.2

/-- Rounding keeps the sign, so it rounds the magnitude. -/
theorem abs (rounding : IsRounding exact result) : IsRounding |exact| |result| := by
  rcases le_total 0 exact with nonneg | nonpos
  · rwa [abs_of_nonneg nonneg, abs_of_nonneg (rounding.ge_of_ge onGrid_zero nonneg)]
  · rw [abs_of_nonpos nonpos, abs_of_nonpos (rounding.le_of_le onGrid_zero nonpos)]
    exact rounding.neg

private theorem abs_sub_le_half_unit_of_nonneg (rounding : IsRounding exact result) {exponent : ℤ}
    (fine : finestExponent ≤ exponent) (nonneg : 0 ≤ exact) (fits : exact < 2 ^ 53 * 2 ^ exponent) :
    |result - exact| ≤ 2 ^ exponent / 2 := by
  have unitPos : (0 : ℝ) < 2 ^ exponent := by positivity
  obtain ⟨countNonneg, countLt⟩ := floor_units_bounds nonneg fits
  have below := rounding.nearest _ ⟨⌊exact / 2 ^ exponent⌋, exponent,
    by rw [abs_of_nonneg countNonneg]; omega, fine, rfl⟩
  have above := rounding.nearest _ ⟨⌊exact / 2 ^ exponent⌋ + 1, exponent,
    by rw [abs_of_nonneg (by omega)]; omega, fine, rfl⟩
  have floorLe : (⌊exact / 2 ^ exponent⌋ : ℝ) * 2 ^ exponent ≤ exact :=
    (le_div_iff₀ unitPos).mp (Int.floor_le _)
  have ltNext : exact < (⌊exact / 2 ^ exponent⌋ + 1 : ℝ) * 2 ^ exponent :=
    (div_lt_iff₀ unitPos).mp (Int.lt_floor_add_one _)
  push_cast at above
  rw [abs_of_nonpos (sub_nonpos.mpr floorLe)] at below
  rw [abs_of_pos (sub_pos.mpr ltNext)] at above
  linarith

/-- The error is at most half of any unit in which the number has at most 53 digits. -/
theorem abs_sub_le_half_unit (rounding : IsRounding exact result) {exponent : ℤ}
    (fine : finestExponent ≤ exponent) (fits : |exact| < 2 ^ 53 * 2 ^ exponent) :
    |result - exact| ≤ 2 ^ exponent / 2 := by
  rcases le_total 0 exact with nonneg | nonpos
  · rw [abs_of_nonneg nonneg] at fits
    exact rounding.abs_sub_le_half_unit_of_nonneg fine nonneg fits
  · rw [abs_of_nonpos nonpos] at fits
    have turned := rounding.neg.abs_sub_le_half_unit_of_nonneg fine (neg_nonneg.mpr nonpos) fits
    rwa [neg_sub_neg, abs_sub_comm] at turned

end IsRounding

end PuzzleKit.Binary64
