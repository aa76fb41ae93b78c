import PuzzleKit.Proofs.Number.Arithmetic
import PuzzleKit.Proofs.Number.Nearest

/-!
# Whole numbers among the doubles

A whole number of at most 53 binary digits is a double. What is computed from such numbers is exact
as long as every result is such a number again.
-/

set_option autoImplicit false

namespace PuzzleKit.Binary64

/-! ## Conversion -/

section Conversion

variable {numerator denominator : Nat} {exponent : ℤ}

/-- The number of units that is chosen for a quotient is a rounding on the grid. -/
theorem Fits.isRounding (positive : 0 < denominator)
    (fits : Fits (numerator / denominator) exponent) :
    IsRounding (numerator / denominator)
      (roundUnits numerator denominator exponent * 2 ^ exponent) := by
  have unitPos : (0 : ℝ) < 2 ^ exponent := by positivity
  have near : |(roundUnits numerator denominator exponent : ℝ) -
      (numerator : ℝ) / denominator / 2 ^ exponent| ≤ 1 / 2 := by
    have scaledPos := inUnits_pos numerator positive exponent
    have nearScaled := (abs_roundQuotient_sub (inUnits numerator denominator exponent).1
      scaledPos).1
    rw [inUnits_div] at nearScaled
    have nearReal := (Rat.cast_le (K := ℝ)).mpr nearScaled
    push_cast at nearReal
    exact nearReal
  have isUnit : IsUnit ((numerator : ℝ) / denominator / 2 ^ exponent) exponent := by
    have lt := (Rat.cast_lt (K := ℝ)).mpr fits.lt
    push_cast at lt
    refine ⟨fits.finest_le, (div_lt_iff₀ unitPos).mpr lt, fits.le.symm.imp_left fun reached => ?_⟩
    have le := (Rat.cast_le (K := ℝ)).mpr reached
    push_cast at le
    exact (le_div_iff₀ unitPos).mpr le
  have rounding := isUnit.isRounding near
  rwa [div_mul_cancel₀ _ unitPos.ne'] at rounding

/-- Converting a quotient is an operation with that quotient as its exact result. -/
theorem computed_nearest (negative : Bool) (positive : 0 < denominator)
    (small : (numerator : ℚ) / denominator < 2 ^ 1023) :
    Computed (if negative then -((numerator : ℝ) / denominator) else numerator / denominator)
      (nearest negative numerator denominator) := by
  obtain ⟨dyadic, decoded, sign, rounding⟩ : ∃ dyadic,
      toDyadic? (nearest negative numerator denominator) = some dyadic ∧
        dyadic.negative = negative ∧
        IsRounding ((numerator : ℝ) / denominator) (dyadic.magnitude : ℚ) := by
    by_cases filled : numerator = 0
    · subst filled
      obtain ⟨dyadic, decoded, sign, magnitude, -⟩ :=
        exists_toDyadic?_eq negative (Nat.zero_le _) (.inl rfl)
          (by decide : 0 * 2 ^ 52 + 0 < infinityBits)
      refine ⟨dyadic, decoded, sign, ?_⟩
      rw [magnitude, Nat.cast_zero, Nat.cast_zero, zero_mul, Rat.cast_zero, zero_div]
      exact .of_onGrid onGrid_zero
    · obtain ⟨dyadic, decoded, sign, magnitude, -⟩ :=
        exists_toDyadic?_nearest negative filled positive small
      refine ⟨dyadic, decoded, sign, ?_⟩
      rw [magnitude]
      push_cast
      exact (unitExponent_fits filled positive.ne').isRounding positive
  obtain ⟨finite, realEq⟩ := real_of_toDyadic? decoded
  refine .finite finite ?_
  rw [realEq, Dyadic.value, sign]
  cases negative
  · exact rounding
  · simpa using rounding.neg

theorem sign_natAbs {K : Type} [Field K] [LinearOrder K] [IsStrictOrderedRing K] (number : ℤ) :
    (if decide (number < 0) then -((number.natAbs : K) / (1 : Nat))
      else number.natAbs / (1 : Nat)) = number := by
  rw [Nat.cast_one, div_one, Nat.cast_natAbs, Int.cast_abs]
  split
  · next negative =>
      have below : (number : K) < 0 := by exact_mod_cast of_decide_eq_true negative
      rw [abs_of_neg below, neg_neg]
  · next nonneg =>
      have above : 0 ≤ number := not_lt.mp fun negative => nonneg (decide_eq_true negative)
      exact abs_of_nonneg (by exact_mod_cast above)

theorem natAbs_lt {number : ℤ} (small : number.natAbs < 2 ^ 64) :
    (number.natAbs : ℚ) / (1 : Nat) < 2 ^ 1023 := by
  calc (number.natAbs : ℚ) / (1 : Nat) = number.natAbs := by rw [Nat.cast_one, div_one]
    _ < 2 ^ 64 := by exact_mod_cast small
    _ ≤ 2 ^ 1023 := pow_le_pow_right₀ one_le_two (by decide)

/-- An integer is converted to the nearest double, and a zero has no sign. -/
theorem ofInt_rounds {number : ℤ} (small : number.natAbs < 2 ^ 64) :
    ∃ dyadic, toDyadic? (ofInt number) = some dyadic ∧ dyadic.negative = decide (number < 0) ∧
      Rounds number dyadic := by
  obtain ⟨dyadic, decoded, sign, rounds⟩ :=
    nearest_rounds (decide (number < 0)) one_pos (natAbs_lt small)
  refine ⟨dyadic, decoded, sign, ?_⟩
  rwa [sign_natAbs] at rounds

end Conversion

/-! ## Exact results -/

/-- The number that a double stands for is whole. -/
structure IsWhole (number : Float) (count : ℤ) : Prop where
  finite : number.isFinite = true
  real_eq : real number = count

namespace IsWhole

variable {number other : Float} {count otherCount : ℤ}

theorem of_computed (computed : Computed count number) (small : |count| ≤ 2 ^ 53) :
    IsWhole number count := by
  have limit : |(count : ℝ)| ≤ 2 ^ 53 := by exact_mod_cast small
  obtain ⟨finite, realEq⟩ :=
    computed.real_eq (onGrid_intCast small) (limit.trans two_pow_le_largest)
  exact ⟨finite, realEq⟩

theorem ofInt (small : |count| ≤ 2 ^ 53) : IsWhole (Binary64.ofInt count) count := by
  have smallNatAbs : count.natAbs < 2 ^ 64 := by
    rw [Int.abs_eq_natAbs] at small
    omega
  have computed := computed_nearest (decide (count < 0)) one_pos (natAbs_lt smallNatAbs)
  rw [sign_natAbs] at computed
  exact .of_computed computed small

theorem add (left : IsWhole number count) (right : IsWhole other otherCount)
    (small : |count + otherCount| ≤ 2 ^ 53) : IsWhole (number + other) (count + otherCount) := by
  have computed := computed_add left.finite right.finite
  rw [left.real_eq, right.real_eq, ← Int.cast_add] at computed
  exact .of_computed computed small

theorem mul (left : IsWhole number count) (right : IsWhole other otherCount)
    (small : |count * otherCount| ≤ 2 ^ 53) : IsWhole (number * other) (count * otherCount) := by
  have computed := computed_mul left.finite right.finite
  rw [left.real_eq, right.real_eq, ← Int.cast_mul] at computed
  exact .of_computed computed small

theorem abs (whole : IsWhole number count) : IsWhole number.abs |count| := by
  obtain ⟨finite, realEq⟩ := real_abs whole.finite
  exact ⟨finite, by rw [realEq, whole.real_eq, Int.cast_abs]⟩

theorem minusOne : IsWhole (-1.0) (-1) := by
  have found : (-1.0 : Float).toModel.unpack = .finite .negative (2 ^ 52) (-52) (by decide) := rfl
  refine ⟨isFinite_of_unpack_finite found, ?_⟩
  rw [real_of_unpack_finite found, signed]
  norm_num

theorem one : IsWhole 1.0 1 := by
  have found : (1.0 : Float).toModel.unpack = .finite .positive (2 ^ 52) (-52) (by decide) := rfl
  refine ⟨isFinite_of_unpack_finite found, ?_⟩
  rw [real_of_unpack_finite found, signed]
  norm_num

/-- A whole number that a double stands for is its exact value. -/
theorem exists_toDyadic? (whole : IsWhole number count) :
    ∃ dyadic, toDyadic? number = some dyadic ∧ dyadic.value = count := by
  obtain ⟨dyadic, decoded, realEq⟩ := exists_toDyadic?_of_isFinite whole.finite
  refine ⟨dyadic, decoded, ?_⟩
  exact_mod_cast realEq.symm.trans whole.real_eq

end IsWhole

end PuzzleKit.Binary64
