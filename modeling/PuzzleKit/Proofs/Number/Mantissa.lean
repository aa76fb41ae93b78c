import PuzzleKit.Proofs.Number.Grid
import PuzzleKit.Proofs.Number.Neutral

/-!
# Rounding a mantissa

The exact result of an operation is kept as a mantissa with two more bits: whether half a unit is
reached, and whether anything is left beyond that. Shifting such a mantissa to the right keeps what
these bits say. So once it is shifted to the unit of the result, rounding it gives the nearest
number of the grid.
-/

set_option autoImplicit false

namespace PuzzleKit.Binary64

open Float.Model (UnpackedFloat Format totalExponent)
open Float.Model.UnpackedFloat

/-! ## Mantissas with their residual bits -/

/-- The exact number that a mantissa is cut off from, counted in units of the mantissa: it is nearer
to the mantissa than to the next one, halfway between them, or nearer to the next one. -/
def Represents : ExtendedMantissa → ℝ → Prop
  | ⟨mantissa, false, false⟩, exact => exact = mantissa
  | ⟨mantissa, false, true⟩, exact => mantissa < exact ∧ exact - mantissa < mantissa + 1 - exact
  | ⟨mantissa, true, false⟩, exact => exact - mantissa = mantissa + 1 - exact
  | ⟨mantissa, true, true⟩, exact => mantissa + 1 - exact < exact - mantissa ∧ exact < mantissa + 1

namespace Represents

variable {extended : ExtendedMantissa} {exact : ℝ}

theorem exact_mantissa (mantissa : Nat) :
    Represents (ExtendedMantissa.ofMantissaAndAccuracy mantissa .exact) mantissa :=
  rfl

theorem mantissa_le (represents : Represents extended exact) : extended.mantissa ≤ exact := by
  obtain ⟨mantissa, roundBit, stickyBit⟩ := extended
  cases roundBit <;> cases stickyBit <;> simp only [Represents] at represents ⊢ <;> linarith

theorem lt_mantissa_add_one (represents : Represents extended exact) :
    exact < extended.mantissa + 1 := by
  obtain ⟨mantissa, roundBit, stickyBit⟩ := extended
  cases roundBit <;> cases stickyBit <;> simp only [Represents] at represents ⊢ <;> linarith

theorem abs_roundedMantissa_sub_le (represents : Represents extended exact) :
    |(extended.roundedMantissa : ℝ) - exact| ≤ 1 / 2 := by
  obtain ⟨mantissa, roundBit, stickyBit⟩ := extended
  rw [abs_le]
  cases roundBit <;> cases stickyBit <;>
    simp only [Represents, ExtendedMantissa.roundedMantissa, ExtendedMantissa.accuracy,
      Accuracy.roundToNearestEven] at represents ⊢
  · constructor <;> linarith
  · constructor <;> linarith
  · have parity : mantissa % 2 = 0 ∨ mantissa % 2 = 1 := by omega
    rcases parity with even | odd
    · rw [even]
      constructor <;> push_cast <;> linarith
    · rw [odd]
      constructor <;> push_cast <;> linarith
  · push_cast
    constructor <;> linarith

/-- The digit that is shifted out becomes the round bit, and the bits behind it are joined. -/
theorem shiftRightOne (represents : Represents extended exact) :
    Represents extended.shiftRightOne (exact / 2) := by
  obtain ⟨mantissa, roundBit, stickyBit⟩ := extended
  obtain ⟨half, rfl | rfl⟩ : ∃ half, mantissa = 2 * half ∨ mantissa = 2 * half + 1 :=
    ⟨mantissa / 2, by omega⟩
  · have halved : 2 * half / 2 = half := by omega
    cases roundBit <;> cases stickyBit <;>
      simp only [Represents, ExtendedMantissa.shiftRightOne, halved, Nat.mul_mod_right,
        Bool.or_false, Bool.or_true, bne_self_eq_false] at represents ⊢ <;>
      push_cast at represents
    · linarith
    all_goals constructor <;> linarith
  · have halved : (2 * half + 1) / 2 = half := by omega
    have odd : ((2 * half + 1) % 2 != 0) = true := by
      rw [Nat.mul_add_mod]
      rfl
    cases roundBit <;> cases stickyBit <;>
      simp only [Represents, ExtendedMantissa.shiftRightOne, halved, odd,
        Bool.or_false, Bool.or_true] at represents ⊢ <;>
      push_cast at represents
    · linarith
    all_goals constructor <;> linarith

theorem shiftRight (represents : Represents extended exact) (amount : Nat) :
    Represents (extended >>> amount) (exact / 2 ^ amount) := by
  induction amount with
  | zero =>
      rw [pow_zero, div_one]
      exact represents
  | succ amount ih =>
      have shifted := ih.shiftRightOne
      rw [div_div, ← pow_succ] at shifted
      exact shifted

end Represents

/-! ## Whole numbers of units -/

/-- The unit of a result: the number has at most 53 binary digits in it, and not fewer unless the
unit is the finest. -/
structure IsUnit (scaled : ℝ) (exponent : ℤ) : Prop where
  finest_le : finestExponent ≤ exponent
  lt : scaled < 2 ^ 53
  full : 2 ^ 52 ≤ scaled ∨ exponent = finestExponent

/-- No whole number is nearer than one that is at most a half away. -/
theorem abs_sub_le_of_half {count : ℤ} {exact : ℝ} (near : |count - exact| ≤ 1 / 2) (other : ℤ) :
    |count - exact| ≤ |other - exact| := by
  by_cases same : other = count
  · rw [same]
  · have apart : (1 : ℝ) ≤ |(other : ℝ) - count| := by
      exact_mod_cast Int.one_le_abs (sub_ne_zero.mpr same)
    have triangle := abs_sub_le (other : ℝ) exact count
    rw [abs_sub_comm exact] at triangle
    linarith

section Units

variable {scaled : ℝ} {exponent : ℤ} {count : Nat}

theorem IsUnit.count_bounds (isUnit : IsUnit scaled exponent)
    (near : |(count : ℝ) - scaled| ≤ 1 / 2) :
    count ≤ 2 ^ 53 ∧ (2 ^ 52 ≤ count ∨ exponent = finestExponent) := by
  obtain ⟨lower, upper⟩ := abs_le.mp near
  constructor
  · have close : (count : ℝ) < 2 ^ 53 + 1 := by linarith [isUnit.lt]
    exact Nat.le_of_lt_succ (by exact_mod_cast close)
  · refine isUnit.full.imp_left fun full => ?_
    have close : (2 ^ 52 : ℝ) < count + 1 := by linarith
    exact Nat.le_of_lt_succ (by exact_mod_cast close)

/-- In its own unit no number is nearer. -/
theorem abs_units_sub_le (near : |(count : ℝ) - scaled| ≤ 1 / 2) (exponent other : ℤ) :
    |(count : ℝ) * 2 ^ exponent - scaled * 2 ^ exponent| ≤
      |(other : ℝ) * 2 ^ exponent - scaled * 2 ^ exponent| := by
  have nearWhole : |((count : ℤ) : ℝ) - scaled| ≤ 1 / 2 := by exact_mod_cast near
  have nearest := abs_sub_le_of_half nearWhole other
  rw [← sub_mul, ← sub_mul, abs_mul, abs_mul]
  exact mul_le_mul_of_nonneg_right (by exact_mod_cast nearest) (abs_nonneg _)

/-- A number of the grid with a finer unit is not nearer: it lies on the other side of the smallest
number of 53 digits, or there is no finer unit. One with a coarser unit is a whole number of these
units. -/
theorem IsUnit.isRounding (isUnit : IsUnit scaled exponent)
    (near : |(count : ℝ) - scaled| ≤ 1 / 2) :
    IsRounding (scaled * 2 ^ exponent) (count * 2 ^ exponent) := by
  constructor
  · refine ⟨count, exponent, ?_, isUnit.finest_le, by push_cast; rfl⟩
    rw [abs_of_nonneg (Int.natCast_nonneg count)]
    exact_mod_cast (isUnit.count_bounds near).1
  · intro other onGrid
    obtain ⟨otherCount, otherExponent, small, fine, rfl⟩ := onGrid
    rcases le_or_gt exponent otherExponent with coarse | finer
    · have multiple : (otherCount : ℝ) * 2 ^ otherExponent =
          ((otherCount * 2 ^ (otherExponent - exponent).toNat : ℤ) : ℝ) * 2 ^ exponent := by
        push_cast
        rw [← zpow_natCast, Int.toNat_of_nonneg (by omega), mul_assoc, ← zpow_add₀ two_ne_zero,
          sub_add_cancel]
      rw [multiple]
      exact abs_units_sub_le near exponent _
    · have full : (2 : ℝ) ^ 52 ≤ scaled := isUnit.full.resolve_right (by omega)
      have below : (otherCount : ℝ) * 2 ^ otherExponent ≤ 2 ^ 52 * 2 ^ exponent := by
        calc (otherCount : ℝ) * 2 ^ otherExponent ≤ 2 ^ 53 * 2 ^ otherExponent := by
              gcongr
              exact_mod_cast (le_abs_self otherCount).trans small
          _ ≤ 2 ^ 52 * 2 ^ exponent := digits_mul_unit_le finer
      have reached : (2 : ℝ) ^ 52 * 2 ^ exponent ≤ scaled * 2 ^ exponent := by gcongr
      have nearFull := abs_units_sub_le near exponent (2 ^ 52)
      rw [Int.cast_pow, Int.cast_ofNat] at nearFull
      rw [abs_of_nonpos (sub_nonpos.mpr reached)] at nearFull
      rw [abs_of_nonpos (sub_nonpos.mpr (below.trans reached))]
      linarith

end Units

/-! ## Rounding to the unit of a result -/

/-- The parts of a magnitude, with a sign that a zero keeps too. -/
inductive HasMagnitude (sign : Sign) : UnpackedFloat → ℝ → Prop where
  | zero : HasMagnitude sign (.zero sign) 0
  | finite {mantissa : Nat} {exponent : ℤ} {positive : 0 < mantissa} :
      Canonical mantissa exponent →
      HasMagnitude sign (.finite sign mantissa exponent positive) (mantissa * 2 ^ exponent)

/-- A mantissa that rounding has carried to one digit more is shifted once again. -/
theorem exists_canonical {count : Nat} {exponent : ℤ} (positive : 0 < count)
    (le : count ≤ 2 ^ 53) (full : 2 ^ 52 ≤ count ∨ exponent = finestExponent)
    (finestLe : finestExponent ≤ exponent) :
    ∃ mantissa canonicalExponent, 0 < mantissa ∧ Canonical mantissa canonicalExponent ∧
      shiftToTargetExponent Format.binary64 count exponent .exact =
        (ExtendedMantissa.ofMantissaAndAccuracy mantissa .exact, canonicalExponent) ∧
      (mantissa : ℝ) * 2 ^ canonicalExponent = count * 2 ^ exponent := by
  rcases Nat.lt_or_eq_of_le le with fits | rfl
  · have canonical : Canonical count exponent := ⟨fits, finestLe, full⟩
    have unshifted := canonical.shiftToTargetExponent_eq positive 0
    rw [pow_zero, mul_one, Nat.cast_zero, sub_zero] at unshifted
    exact ⟨count, exponent, positive, canonical, unshifted, rfl⟩
  · have canonical : Canonical (2 ^ 52) (exponent + 1) :=
      ⟨by decide, by omega, .inl (le_refl _)⟩
    have shifted := canonical.shiftToTargetExponent_eq (by decide) 1
    rw [← pow_add, Nat.cast_one, add_sub_cancel_right] at shifted
    refine ⟨2 ^ 52, exponent + 1, by decide, canonical, shifted, ?_⟩
    rw [zpow_add_one₀ two_ne_zero]
    push_cast
    ring

theorem shiftToTargetExponent_zero (exponent : ℤ) :
    (shiftToTargetExponent Format.binary64 0 exponent .exact).1.mantissa = 0 := by
  have shifted := (Represents.exact_mantissa 0).shiftRight
    (Format.binary64.targetExponent (totalExponent 0 exponent) - exponent).toNat
  have le := shifted.mantissa_le
  rw [Nat.cast_zero, zero_div] at le
  exact_mod_cast le_antisymm le (Nat.cast_nonneg _)

section Result

variable {mantissa : Nat} {exponent : ℤ} {accuracy : Accuracy} {scaled : ℝ}

/-- The unit that a mantissa is shifted to is the unit of the result. -/
theorem isUnit_target (mantissaLe : mantissa ≤ scaled) (ltNext : scaled < mantissa + 1)
    (fine : exponent ≤ Format.binary64.targetExponent (totalExponent mantissa exponent)) :
    let target := Format.binary64.targetExponent (totalExponent mantissa exponent)
    IsUnit (scaled / 2 ^ (target - exponent).toNat) target := by
  intro target
  obtain ⟨shift, targetEq⟩ : ∃ shift : Nat, target = exponent + shift :=
    ⟨(target - exponent).toNat, by omega⟩
  have amount : (target - exponent).toNat = shift := by omega
  have targetDef : target = max (mantissa.log2 + 1 + exponent - 53) finestExponent := rfl
  have powerPos : (0 : ℝ) < 2 ^ shift := by positivity
  rw [amount]
  refine ⟨targetDef ▸ le_max_right _ _, ?_, ?_⟩
  · rw [div_lt_iff₀ powerPos, ← pow_add]
    calc scaled < mantissa + 1 := ltNext
      _ ≤ 2 ^ (mantissa.log2 + 1) := by exact_mod_cast Nat.lt_log2_self
      _ ≤ 2 ^ (53 + shift) := pow_le_pow_right₀ one_le_two (by omega)
  · rcases le_or_gt target finestExponent with finest | coarser
    · exact .inr (by omega)
    · left
      have digits : mantissa.log2 = 52 + shift := by omega
      have filled : mantissa ≠ 0 := by
        rintro rfl
        rw [Nat.log2_zero] at digits
        omega
      rw [le_div_iff₀ powerPos, ← pow_add, ← digits]
      calc (2 : ℝ) ^ mantissa.log2 ≤ mantissa := by exact_mod_cast Nat.log2_self_le filled
        _ ≤ scaled := mantissaLe

theorem mantissa_ofMantissaAndAccuracy (mantissa : Nat) (accuracy : Accuracy) :
    (ExtendedMantissa.ofMantissaAndAccuracy mantissa accuracy).mantissa = mantissa := by
  rcases accuracy with _ | ordering
  · rfl
  · cases ordering <;> rfl

/-- A mantissa with its residual bits is rounded to the nearest number of the grid. Rounding may
carry to a further digit; the second shift drops a zero then. -/
theorem roundWithAccuracy_isRounding (sign : Sign)
    (represents : Represents (ExtendedMantissa.ofMantissaAndAccuracy mantissa accuracy) scaled)
    (fine : exponent ≤ Format.binary64.targetExponent (totalExponent mantissa exponent)) :
    ∃ magnitude, IsRounding (scaled * 2 ^ exponent) magnitude ∧
      HasMagnitude sign
        (roundWithAccuracy Format.binary64 sign mantissa exponent accuracy) magnitude := by
  let target := Format.binary64.targetExponent (totalExponent mantissa exponent)
  let shift := (target - exponent).toNat
  let shifted := ExtendedMantissa.ofMantissaAndAccuracy mantissa accuracy >>> shift
  have shiftEq : exponent + shift = target := by omega
  have first : shiftToTargetExponent Format.binary64 mantissa exponent accuracy =
      (shifted, target) := by
    rw [← shiftEq]
    rfl
  have isUnit : IsUnit (scaled / 2 ^ shift) target := by
    have below := represents.mantissa_le
    have above := represents.lt_mantissa_add_one
    rw [mantissa_ofMantissaAndAccuracy] at below above
    exact isUnit_target below above fine
  have near := (represents.shiftRight shift).abs_roundedMantissa_sub_le
  have exactEq : scaled / 2 ^ shift * 2 ^ target = scaled * 2 ^ exponent := by
    rw [← shiftEq, zpow_add₀ two_ne_zero, zpow_natCast]
    field_simp
  have rounding := isUnit.isRounding near
  rw [exactEq] at rounding
  refine ⟨_, rounding, ?_⟩
  obtain ⟨le, full⟩ := isUnit.count_bounds near
  rw [roundWithAccuracy, first]
  rcases Nat.eq_zero_or_pos shifted.roundedMantissa with noneLeft | positive
  · simp only [shifted, noneLeft, shiftToTargetExponent_zero, ↓reduceDIte, Nat.cast_zero, zero_mul]
    exact .zero
  · obtain ⟨final, finalExponent, finalPos, canonical, second, finalEq⟩ :=
      exists_canonical positive le full isUnit.finest_le
    have filled : (ExtendedMantissa.ofMantissaAndAccuracy final .exact).mantissa ≠ 0 :=
      finalPos.ne'
    rw [← finalEq]
    simp only [second, filled, ↓reduceDIte]
    exact .finite canonical

end Result

end PuzzleKit.Binary64
