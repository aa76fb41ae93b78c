import Mathlib.Algebra.Order.Field.Power
import Mathlib.Algebra.Order.Field.Rat
import Mathlib.Tactic.FieldSimp
import Mathlib.Tactic.Linarith
import Mathlib.Tactic.NormNum
import Mathlib.Tactic.Positivity
import Mathlib.Tactic.Ring
import PuzzleKit.Number.Binary64

/-!
# Rounding a quotient to whole units

A quotient is rounded in two steps: first a unit is chosen in which it has 53 binary digits before
the point, and then it is rounded to a whole number of these units. The units are powers of two,
and none is finer than the finest one; a small quotient may have fewer digits in that.
-/

set_option autoImplicit false

namespace PuzzleKit.Binary64

/-! ## The nearest whole number -/

section Quotient

variable {denominator : Nat}

/-- Both neighbours of a quotient, with the remainder that decides between them. -/
theorem roundQuotient_cases (numerator denominator : Nat) :
    let quotient := numerator / denominator
    let remainder := numerator % denominator
    roundQuotient numerator denominator = quotient ∧ 2 * remainder ≤ denominator ∧
        (2 * remainder = denominator → quotient % 2 = 0) ∨
      roundQuotient numerator denominator = quotient + 1 ∧ denominator ≤ 2 * remainder ∧
        (2 * remainder = denominator → (quotient + 1) % 2 = 0) := by
  intro quotient remainder
  by_cases down : 2 * remainder < denominator ∨
      (2 * remainder = denominator ∧ quotient % 2 = 0)
  · refine .inl ⟨if_pos down, ?_, ?_⟩ <;> omega
  · refine .inr ⟨if_neg down, ?_, ?_⟩ <;> omega

/-- The rounded quotient is at most one half away, and exactly one half only if it is even. -/
theorem abs_roundQuotient_sub (numerator : Nat) (positive : 0 < denominator) :
    |(roundQuotient numerator denominator : ℚ) - numerator / denominator| ≤ 1 / 2 ∧
      (|(roundQuotient numerator denominator : ℚ) - numerator / denominator| = 1 / 2 →
        roundQuotient numerator denominator % 2 = 0) := by
  have positive' : (0 : ℚ) < denominator := by exact_mod_cast positive
  have split : (numerator : ℚ) / denominator =
      (numerator / denominator : Nat) + (numerator % denominator : Nat) / denominator := by
    have parts : (numerator : ℚ) =
        denominator * (numerator / denominator : Nat) + (numerator % denominator : Nat) := by
      exact_mod_cast (Nat.div_add_mod numerator denominator).symm
    field_simp
    linarith
  have below : ((numerator % denominator : Nat) : ℚ) / denominator < 1 := by
    rw [div_lt_one positive']
    exact_mod_cast Nat.mod_lt numerator positive
  have above : (0 : ℚ) ≤ (numerator % denominator : Nat) / denominator := by positivity
  have halfIff : ((numerator % denominator : Nat) : ℚ) / denominator = 1 / 2 ↔
      2 * (numerator % denominator) = denominator := by
    rw [div_eq_div_iff (ne_of_gt positive') two_ne_zero, one_mul, mul_comm]
    exact_mod_cast Iff.rfl
  rcases roundQuotient_cases numerator denominator with
    ⟨down, small, even⟩ | ⟨up, large, even⟩
  · have near : ((numerator % denominator : Nat) : ℚ) / denominator ≤ 1 / 2 := by
      rw [div_le_div_iff₀ positive' two_pos, one_mul, mul_comm]
      exact_mod_cast small
    rw [split, down, sub_add_cancel_left, abs_neg, abs_of_nonneg above]
    exact ⟨near, fun half => even (halfIff.mp half)⟩
  · have near : 1 / 2 ≤ ((numerator % denominator : Nat) : ℚ) / denominator := by
      rw [div_le_div_iff₀ two_pos positive', one_mul, mul_comm]
      exact_mod_cast large
    rw [split, up, Nat.cast_succ, add_sub_add_left_eq_sub, abs_of_pos (by linarith)]
    exact ⟨by linarith, fun half => even (halfIff.mp (by linarith))⟩

/-- Any other whole number is one or more away from the rounded quotient. -/
theorem roundQuotient_nearest (numerator : Nat) (positive : 0 < denominator) (whole : Nat) :
    |(roundQuotient numerator denominator : ℚ) - numerator / denominator| ≤
        |(whole : ℚ) - numerator / denominator| ∧
      (|(roundQuotient numerator denominator : ℚ) - numerator / denominator| =
          |(whole : ℚ) - numerator / denominator| →
        whole = roundQuotient numerator denominator ∨
          roundQuotient numerator denominator % 2 = 0) := by
  obtain ⟨near, even⟩ := abs_roundQuotient_sub numerator positive
  by_cases same : whole = roundQuotient numerator denominator
  · exact ⟨le_of_eq (by rw [same]), fun _ => .inl same⟩
  · have apart : (1 : ℚ) ≤ |(whole : ℚ) - roundQuotient numerator denominator| := by
      have integral : (1 : ℤ) ≤ |(whole : ℤ) - roundQuotient numerator denominator| :=
        Int.one_le_abs (sub_ne_zero.mpr (by exact_mod_cast same))
      exact_mod_cast integral
    have triangle := abs_sub_le (whole : ℚ) (numerator / denominator)
      (roundQuotient numerator denominator)
    rw [abs_sub_comm ((numerator : ℚ) / denominator)] at triangle
    exact ⟨by linarith, fun tie => .inr (even (by linarith))⟩

theorem le_roundQuotient {numerator : Nat} (positive : 0 < denominator) {whole : Nat}
    (le : (whole : ℚ) ≤ numerator / denominator) : whole ≤ roundQuotient numerator denominator := by
  have near := (abs_le.mp (abs_roundQuotient_sub numerator positive).1).1
  have close : (whole : ℚ) < roundQuotient numerator denominator + 1 := by linarith
  exact Nat.le_of_lt_succ (by exact_mod_cast close)

theorem roundQuotient_le {numerator : Nat} (positive : 0 < denominator) {whole : Nat}
    (le : (numerator : ℚ) / denominator ≤ whole) : roundQuotient numerator denominator ≤ whole := by
  have near := (abs_le.mp (abs_roundQuotient_sub numerator positive).1).2
  have close : (roundQuotient numerator denominator : ℚ) < whole + 1 := by linarith
  exact Nat.le_of_lt_succ (by exact_mod_cast close)

end Quotient

/-! ## Units -/

theorem inUnits_pos (numerator : Nat) {denominator : Nat} (positive : 0 < denominator)
    (exponent : Int) : 0 < (inUnits numerator denominator exponent).2 := by
  cases exponent with
  | ofNat exponent => exact Nat.mul_pos positive (Nat.two_pow_pos exponent)
  | negSucc exponent => exact positive

/-- Counting in units divides by the unit. -/
theorem inUnits_div (numerator denominator : Nat) (exponent : Int) :
    ((inUnits numerator denominator exponent).1 : ℚ) / (inUnits numerator denominator exponent).2 =
      numerator / denominator / 2 ^ exponent := by
  cases exponent with
  | ofNat exponent =>
      change (numerator : ℚ) / (denominator * 2 ^ exponent : Nat) = _
      rw [Int.ofNat_eq_natCast, zpow_natCast, div_div]
      push_cast
      rfl
  | negSucc exponent =>
      change ((numerator * 2 ^ (exponent + 1) : Nat) : ℚ) / denominator = _
      rw [zpow_negSucc, div_inv_eq_mul]
      push_cast
      ring

/-- A unit in which a positive number has 53 binary digits before the point, or no more than that
if it is the finest one. -/
structure Fits (exact : ℚ) (exponent : Int) : Prop where
  finest_le : finestExponent ≤ exponent
  lt : exact < 2 ^ 53 * 2 ^ exponent
  le : exponent = finestExponent ∨ 2 ^ 52 * 2 ^ exponent ≤ exact

/-- The binary digits of both parts of a quotient leave two possible units. -/
theorem quotient_bounds {numerator denominator : Nat} (filled : numerator ≠ 0)
    (positive : denominator ≠ 0) :
    let estimate : Int := (numerator.log2 : Int) - denominator.log2 - 53
    (2 : ℚ) ^ 52 * 2 ^ estimate ≤ numerator / denominator ∧
      (numerator : ℚ) / denominator < 2 ^ 53 * 2 ^ (estimate + 1) := by
  intro estimate
  have numeratorGe : (2 : ℚ) ^ numerator.log2 ≤ numerator := by
    exact_mod_cast Nat.log2_self_le filled
  have numeratorLt : (numerator : ℚ) < 2 ^ (numerator.log2 + 1) := by
    exact_mod_cast Nat.lt_log2_self (n := numerator)
  have denominatorGe : (2 : ℚ) ^ denominator.log2 ≤ denominator := by
    exact_mod_cast Nat.log2_self_le positive
  have denominatorLt : (denominator : ℚ) < 2 ^ (denominator.log2 + 1) := by
    exact_mod_cast Nat.lt_log2_self (n := denominator)
  have denominatorPos : (0 : ℚ) < denominator := by exact_mod_cast Nat.pos_of_ne_zero positive
  constructor
  · rw [le_div_iff₀ denominatorPos]
    calc (2 : ℚ) ^ 52 * 2 ^ estimate * denominator
        ≤ 2 ^ 52 * 2 ^ estimate * 2 ^ (denominator.log2 + 1) := by gcongr
      _ = 2 ^ numerator.log2 := by
          simp only [← zpow_natCast, ← zpow_add₀ (two_ne_zero' ℚ)]
          congr 1
          omega
      _ ≤ numerator := numeratorGe
  · rw [div_lt_iff₀ denominatorPos]
    calc (numerator : ℚ) < 2 ^ (numerator.log2 + 1) := numeratorLt
      _ = 2 ^ 53 * 2 ^ (estimate + 1) * 2 ^ denominator.log2 := by
          simp only [← zpow_natCast, ← zpow_add₀ (two_ne_zero' ℚ)]
          congr 1
          omega
      _ ≤ 2 ^ 53 * 2 ^ (estimate + 1) * denominator := by gcongr

theorem unitExponent_fits {numerator denominator : Nat} (filled : numerator ≠ 0)
    (positive : denominator ≠ 0) :
    Fits (numerator / denominator) (unitExponent numerator denominator) := by
  let estimate : Int := (numerator.log2 : Int) - denominator.log2 - 53
  obtain ⟨lower, upper⟩ := quotient_bounds filled positive
  have scaledPos : (0 : ℚ) < (inUnits numerator denominator estimate).2 := by
    exact_mod_cast inUnits_pos numerator (Nat.pos_of_ne_zero positive) estimate
  have reachesIff : Nat.pow 2 53 * (inUnits numerator denominator estimate).2 ≤
      (inUnits numerator denominator estimate).1 ↔
        (2 : ℚ) ^ 53 * 2 ^ estimate ≤ numerator / denominator := by
    have unitPos : (0 : ℚ) < 2 ^ estimate := by positivity
    rw [← le_div_iff₀ unitPos, ← inUnits_div, le_div_iff₀ scaledPos]
    exact_mod_cast Iff.rfl
  obtain ⟨exponent, chosen, below, above⟩ : ∃ exponent : Int,
      unitExponent numerator denominator = max finestExponent exponent ∧
        (2 : ℚ) ^ 52 * 2 ^ exponent ≤ numerator / denominator ∧
        (numerator : ℚ) / denominator < 2 ^ 53 * 2 ^ exponent := by
    by_cases reaches : Nat.pow 2 53 * (inUnits numerator denominator estimate).2 ≤
        (inUnits numerator denominator estimate).1
    · refine ⟨estimate + 1, congrArg (max finestExponent) (if_pos reaches), ?_, upper⟩
      calc (2 : ℚ) ^ 52 * 2 ^ (estimate + 1) = 2 ^ 53 * 2 ^ estimate := by
            rw [zpow_add_one₀ two_ne_zero]
            ring
        _ ≤ (numerator : ℚ) / denominator := reachesIff.mp reaches
    · refine ⟨estimate, congrArg (max finestExponent) (if_neg reaches), lower, ?_⟩
      exact lt_of_not_ge (mt reachesIff.mpr reaches)
  rw [chosen]
  rcases le_total finestExponent exponent with fine | coarse
  · rw [max_eq_right fine]
    exact ⟨fine, above, .inr below⟩
  · rw [max_eq_left coarse]
    refine ⟨le_rfl, lt_of_lt_of_le above ?_, .inl rfl⟩
    gcongr
    exact one_le_two

end PuzzleKit.Binary64
