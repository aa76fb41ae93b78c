import PuzzleKit.Proofs.Number.Dyadic
import PuzzleKit.Proofs.Number.Mantissa

/-!
# Doubles as real numbers

A finite double is a real number, and the result of an operation is a double that stands for the
rounded exact result. If that is above all doubles, the result is infinite.
-/

set_option autoImplicit false

namespace PuzzleKit.Binary64

open Float.Model (UnpackedFloat Format)
open Float.Model.UnpackedFloat

/-! ## The fields of an encoding -/

section Fields

variable (bits : BitVec Format.binary64.numBits)

theorem toNat_unpackExponent :
    (unpackExponent bits).toNat = bits.toNat / 2 ^ 52 % 2048 := by
  rw [unpackExponent_def, BitVec.extractLsb'_toNat, Nat.shiftRight_eq_div_pow]
  rfl

theorem toNat_unpackMantissa :
    (unpackMantissa bits).toNat = bits.toNat % 2 ^ 52 := by
  rw [unpackMantissa_def, BitVec.extractLsb'_toNat, Nat.shiftRight_zero]

theorem toNat_unpackSign :
    (unpackSign bits).toNat = bits.toNat / 2 ^ 63 % 2 := by
  rw [unpackSign_def, BitVec.extractLsb'_toNat, Nat.shiftRight_eq_div_pow]
  rfl

theorem ofBitVec_unpackSign :
    (Sign.ofBitVec (unpackSign bits) == .negative) =
      decide (2 ^ 63 ≤ bits.toNat) := by
  have bound : bits.toNat < 2 ^ 64 := bits.isLt
  have toNatEq := toNat_unpackSign bits
  by_cases negative : 2 ^ 63 ≤ bits.toNat
  · have one : unpackSign bits = 1#1 :=
      BitVec.eq_of_toNat_eq (toNatEq.trans (by rw [BitVec.toNat_ofNat]; omega))
    rw [one, decide_eq_true negative]
    rfl
  · have zero : unpackSign bits = 0#1 :=
      BitVec.eq_of_toNat_eq (toNatEq.trans (by rw [BitVec.toNat_ofNat]; omega))
    rw [zero, decide_eq_false negative]
    rfl

end Fields

/-- The number that unpacked parts stand for; infinities and what is no number have none. -/
def dyadicOf? : UnpackedFloat → Option Dyadic
  | .zero sign => some ⟨sign == .negative, 0, finestExponent⟩
  | .finite sign mantissa exponent _ => some ⟨sign == .negative, mantissa, exponent⟩
  | .infinity _ => none
  | .notANumber => none

/-- All bits of the exponent are set for what has no finite value, and none for the finest unit. -/
theorem toDyadic?_eq (number : Float) : toDyadic? number = dyadicOf? number.toModel.unpack := by
  let bits : BitVec Format.binary64.numBits := number.toModel.toBits.toBitVec
  have fieldEq := toNat_unpackExponent bits
  have fractionEq := toNat_unpackMantissa bits
  have signEq := ofBitVec_unpackSign bits
  have bitsEq : number.toBits.toNat = bits.toNat := rfl
  change toDyadic? number = dyadicOf? (UnpackedFloat.unpack Format.binary64 bits)
  simp only [toDyadic?, bitsEq, Nat.pow_eq]
  rw [UnpackedFloat.unpack]
  rw [← fieldEq, ← fractionEq, ← signEq]
  by_cases special : unpackExponent bits = -1#_
  · have allSet : (unpackExponent bits).toNat = 2047 := by
      rw [special]
      rfl
    rw [if_pos special, if_pos allSet]
    split <;> rfl
  · have notAllSet : (unpackExponent bits).toNat ≠ 2047 :=
      fun same => special (BitVec.eq_of_toNat_eq same)
    rw [if_neg special, if_neg notAllSet]
    by_cases lowest : unpackExponent bits = 0#_
    · have noneSet : (unpackExponent bits).toNat = 0 := by
        rw [lowest]
        rfl
      rw [if_pos lowest, if_pos noneSet]
      split
      · next empty =>
          rw [empty]
          rfl
      · rw [dyadicOf?, noneSet]
        rfl
    · have someSet : (unpackExponent bits).toNat ≠ 0 :=
        fun same => lowest (BitVec.eq_of_toNat_eq same)
      have exponentEq : finestExponent +
            Int.ofNat ((unpackExponent bits).toNat - 1) =
          (unpackExponent bits).toNat - (1023 + 52 : ℤ) := by
        rw [finestExponent, Int.ofNat_eq_natCast]
        omega
      rw [if_neg lowest, if_neg someSet, exponentEq, dyadicOf?, toNat_implicit_append]
      rfl

/-! ## Packing -/

/-- The field of an encoding for the unit of a mantissa with all digits. -/
theorem biased_toNat (exponent : ℤ) :
    (exponent + Format.binary64.exponentBias +
      Format.binary64.mantissaBitsWithoutImplicit).toNat = (exponent + 1075).toNat := by
  have bias : (Format.binary64.exponentBias : ℤ) = 1023 := rfl
  have bits : (Format.binary64.mantissaBitsWithoutImplicit : ℤ) = 52 := rfl
  omega

theorem exponentField_size : 2 ^ Format.binary64.exponentBits = 2048 :=
  rfl

section Packing

variable (sign : Sign) {mantissa : Nat} {exponent : ℤ} (positive : 0 < mantissa)

theorem unpack_pack_of_lt (above : 971 < exponent) :
    (Float.ofModel (Float.Model.pack (.finite sign mantissa exponent positive))).toModel.unpack =
      .infinity sign := by
  have tooLarge : 2 ^ Format.binary64.exponentBits ≤
      (exponent + Format.binary64.exponentBias +
        Format.binary64.mantissaBitsWithoutImplicit).toNat + 1 := by
    rw [biased_toNat, exponentField_size]
    omega
  have packed : UnpackedFloat.pack Format.binary64 (.finite sign mantissa exponent positive) =
      packedInfinity Format.binary64 sign :=
    if_pos tooLarge
  change UnpackedFloat.unpack Format.binary64
    (UnpackedFloat.pack Format.binary64 (.finite sign mantissa exponent positive)) = _
  rw [packed]
  cases sign <;> rfl

theorem unpack_packComponents_normal {field : BitVec 11} (fraction : BitVec 52)
    (notLowest : field ≠ 0#11) (notSpecial : field ≠ -1#11) :
    UnpackedFloat.unpack Format.binary64 (packComponents Format.binary64 sign field fraction) =
      .finite sign (2 ^ 52 + fraction.toNat) (field.toNat - 1075) (by positivity) := by
  rw [UnpackedFloat.unpack]
  simp only [unpackExponent_packComponents, unpackMantissa_packComponents,
    unpackSign_packComponents, Sign.ofBitVec_toBitVec]
  rw [if_neg notSpecial, if_neg notLowest]
  simp only [toNat_implicit_append]
  rfl

theorem unpack_packComponents_subnormal {fraction : BitVec 52}
    (filled : 0 < fraction.toNat) :
    UnpackedFloat.unpack Format.binary64 (packComponents Format.binary64 sign 0#11 fraction) =
      .finite sign fraction.toNat finestExponent filled := by
  have notEmpty : fraction ≠ 0#52 := by
    rintro rfl
    exact absurd filled (Nat.lt_irrefl 0)
  rw [UnpackedFloat.unpack]
  simp only [unpackExponent_packComponents, unpackMantissa_packComponents,
    unpackSign_packComponents, Sign.ofBitVec_toBitVec]
  rw [if_neg (by decide), if_pos trivial, dif_neg notEmpty]
  rfl

theorem Canonical.unpack_pack_normal (canonical : Canonical mantissa exponent)
    (small : exponent ≤ 971) (full : 2 ^ 52 ≤ mantissa) :
    (Float.ofModel (Float.Model.pack (.finite sign mantissa exponent positive))).toModel.unpack =
      .finite sign mantissa exponent positive := by
  have finestLe : -1074 ≤ exponent := canonical.finest_le
  have mantissaLt := canonical.mantissa_lt
  have fits : ¬ 2 ^ Format.binary64.exponentBits ≤ (exponent + 1075).toNat + 1 := by
    rw [exponentField_size]
    omega
  have digits : mantissa.log2 + 1 = Format.binary64.mantissaBits :=
    congrArg (· + 1) ((Nat.log2_eq_iff positive.ne').mpr ⟨full, mantissaLt⟩)
  have fieldToNat : (BitVec.ofNat 11 (exponent + 1075).toNat).toNat = (exponent + 1075).toNat := by
    rw [BitVec.toNat_ofNat]
    omega
  have notLowest : BitVec.ofNat 11 (exponent + 1075).toNat ≠ 0#11 := by
    intro same
    rw [same, BitVec.toNat_zero] at fieldToNat
    omega
  have notSpecial : BitVec.ofNat 11 (exponent + 1075).toNat ≠ -1#11 := by
    intro same
    have allSet : (-1#11).toNat = 2047 := rfl
    rw [same, allSet] at fieldToNat
    omega
  change UnpackedFloat.unpack Format.binary64
    (UnpackedFloat.pack Format.binary64 (.finite sign mantissa exponent positive)) = _
  simp only [UnpackedFloat.pack, biased_toNat exponent, if_neg fits, if_pos digits]
  refine (unpack_packComponents_normal sign _ notLowest notSpecial).trans ?_
  simp only [fieldToNat, BitVec.toNat_ofNat, UnpackedFloat.finite.injEq, true_and]
  constructor <;> omega

theorem unpack_pack_subnormal (below : mantissa < 2 ^ 52) :
    (Float.ofModel (Float.Model.pack
      (.finite sign mantissa finestExponent positive))).toModel.unpack =
      .finite sign mantissa finestExponent positive := by
  have fits : ¬ 2 ^ Format.binary64.exponentBits ≤ (finestExponent + 1075).toNat + 1 := by decide
  have fewDigits : mantissa.log2 + 1 ≠ Format.binary64.mantissaBits := by
    have log2Lt := (Nat.log2_lt positive.ne').mpr below
    have bits : Format.binary64.mantissaBits = 53 := rfl
    omega
  have fractionToNat : (BitVec.ofNat 52 mantissa).toNat = mantissa := by
    rw [BitVec.toNat_ofNat]
    omega
  change UnpackedFloat.unpack Format.binary64
    (UnpackedFloat.pack Format.binary64 (.finite sign mantissa finestExponent positive)) = _
  simp only [UnpackedFloat.pack, biased_toNat finestExponent, if_neg fits, if_neg fewDigits]
  refine (unpack_packComponents_subnormal sign (by rwa [fractionToNat])).trans ?_
  simp only [fractionToNat]

/-- Parts that fit are unpacked as they were packed. -/
theorem Canonical.unpack_pack (canonical : Canonical mantissa exponent) (small : exponent ≤ 971) :
    (Float.ofModel (Float.Model.pack (.finite sign mantissa exponent positive))).toModel.unpack =
      .finite sign mantissa exponent positive := by
  rcases le_or_gt (2 ^ 52) mantissa with full | below
  · exact canonical.unpack_pack_normal sign positive small full
  · obtain rfl := canonical.full.resolve_left (not_le.mpr below)
    exact unpack_pack_subnormal sign positive below

end Packing

/-! ## Real numbers -/

/-- The number that a double stands for, or zero if it is not finite. -/
noncomputable def real (number : Float) : ℝ :=
  (((toDyadic? number).map Dyadic.value).getD 0 : ℚ)

noncomputable def signed : Sign → ℝ → ℝ
  | .negative, magnitude => -magnitude
  | .positive, magnitude => magnitude

theorem abs_signed (sign : Sign) (magnitude : ℝ) : |signed sign magnitude| = |magnitude| := by
  cases sign
  · exact abs_neg magnitude
  · rfl

theorem signed_zero (sign : Sign) : signed sign 0 = 0 := by
  cases sign
  · exact neg_zero
  · rfl

theorem signed_mul (first second : Sign) (magnitude other : ℝ) :
    signed first magnitude * signed second other = signed (first * second) (magnitude * other) := by
  cases first <;> cases second
  · exact neg_mul_neg magnitude other
  · exact neg_mul magnitude other
  · exact mul_neg magnitude other
  · rfl

theorem signed_div (first second : Sign) (magnitude other : ℝ) :
    signed first magnitude / signed second other = signed (first / second) (magnitude / other) := by
  cases first <;> cases second
  · exact neg_div_neg_eq magnitude other
  · exact neg_div other magnitude
  · exact div_neg magnitude
  · rfl

theorem IsRounding.signed {exact result : ℝ} (rounding : IsRounding exact result) (sign : Sign) :
    IsRounding (signed sign exact) (Binary64.signed sign result) := by
  cases sign
  · exact rounding.neg
  · exact rounding

section Parts

variable {number : Float} {sign : Sign} {mantissa : Nat} {exponent : ℤ} {positive : 0 < mantissa}

theorem real_of_unpack_zero (found : number.toModel.unpack = .zero sign) : real number = 0 := by
  rw [real, toDyadic?_eq, found]
  cases sign <;> simp [dyadicOf?, Dyadic.value, Dyadic.magnitude]

theorem real_of_unpack_finite
    (found : number.toModel.unpack = .finite sign mantissa exponent positive) :
    real number = signed sign (mantissa * 2 ^ exponent) := by
  rw [real, toDyadic?_eq, found]
  cases sign <;> simp [dyadicOf?, Dyadic.value, Dyadic.magnitude, signed]

theorem isFinite_of_unpack_zero (found : number.toModel.unpack = .zero sign) :
    number.isFinite = true := by
  change number.toModel.unpack.isFinite = true
  rw [found]
  rfl

theorem isFinite_of_unpack_finite
    (found : number.toModel.unpack = .finite sign mantissa exponent positive) :
    number.isFinite = true := by
  change number.toModel.unpack.isFinite = true
  rw [found]
  rfl

theorem isFinite_of_unpack_infinity (found : number.toModel.unpack = .infinity sign) :
    number.isFinite = false := by
  change number.toModel.unpack.isFinite = false
  rw [found]
  rfl

end Parts

theorem Canonical.onGrid {mantissa : Nat} {exponent : ℤ} (canonical : Canonical mantissa exponent) :
    OnGrid (mantissa * 2 ^ exponent) := by
  refine ⟨mantissa, exponent, ?_, canonical.finest_le, by push_cast; rfl⟩
  rw [abs_of_nonneg (Int.natCast_nonneg mantissa)]
  exact_mod_cast canonical.mantissa_lt.le

/-- A unit that is too large for an encoding makes a number too large for all doubles. -/
theorem Canonical.largest_lt {mantissa : Nat} {exponent : ℤ}
    (canonical : Canonical mantissa exponent) (above : 971 < exponent) :
    largest < mantissa * 2 ^ exponent := by
  have full : 2 ^ 52 ≤ mantissa := by
    refine canonical.full.resolve_right ?_
    rw [finestExponent]
    omega
  calc largest < 2 ^ 53 * 2 ^ (971 : ℤ) := by
        rw [largest]
        gcongr
        norm_num
    _ ≤ 2 ^ 52 * 2 ^ exponent := digits_mul_unit_le above
    _ ≤ mantissa * 2 ^ exponent := by
        gcongr
        exact_mod_cast full

theorem Canonical.le_largest {mantissa : Nat} {exponent : ℤ}
    (canonical : Canonical mantissa exponent) (small : exponent ≤ 971) :
    mantissa * 2 ^ exponent ≤ largest := by
  have mantissaLe : (mantissa : ℝ) + 1 ≤ 2 ^ 53 := by exact_mod_cast canonical.mantissa_lt
  rw [largest]
  gcongr
  · linarith
  · exact one_le_two

theorem onGrid_real {number : Float} (finite : number.isFinite = true) : OnGrid (real number) := by
  obtain ⟨sign, found⟩ | ⟨sign, mantissa, exponent, positive, found⟩ := unpack_of_isFinite finite
  · rw [real_of_unpack_zero found]
    exact onGrid_zero
  · rw [real_of_unpack_finite found]
    have onGrid := (canonical_of_unpack found).onGrid
    cases sign
    · exact onGrid.neg
    · exact onGrid

/-- Only a zero stands for zero, and it compares equal to zero. -/
theorem real_ne_zero {number : Float} (finite : number.isFinite = true)
    (nonzero : (number == 0.0) = false) : real number ≠ 0 := by
  obtain ⟨sign, found⟩ | ⟨sign, mantissa, exponent, positive, found⟩ := unpack_of_isFinite finite
  · have zero : IsZero (0.0 : Float) := ⟨.positive, rfl⟩
    have same : EqUpToZeroSign number 0.0 := .inr ⟨⟨sign, found⟩, zero⟩
    rw [same.beq rfl] at nonzero
    cases nonzero
  · have magnitudePos : (0 : ℝ) < mantissa * 2 ^ exponent := by positivity
    rw [real_of_unpack_finite found, ← abs_pos, abs_signed, abs_of_pos magnitudePos]
    exact magnitudePos

theorem exists_toDyadic?_of_isFinite {number : Float} (finite : number.isFinite = true) :
    ∃ dyadic, toDyadic? number = some dyadic ∧ real number = dyadic.value := by
  obtain ⟨dyadic, decoded⟩ : ∃ dyadic, toDyadic? number = some dyadic := by
    rw [toDyadic?_eq]
    obtain ⟨sign, found⟩ | ⟨sign, mantissa, exponent, positive, found⟩ := unpack_of_isFinite finite
    · exact ⟨_, by rw [found]; rfl⟩
    · exact ⟨_, by rw [found]; rfl⟩
  refine ⟨dyadic, decoded, ?_⟩
  rw [real, decoded, Option.map_some, Option.getD_some]

theorem real_of_toDyadic? {number : Float} {dyadic : Dyadic}
    (decoded : toDyadic? number = some dyadic) :
    number.isFinite = true ∧ real number = dyadic.value := by
  refine ⟨?_, by rw [real, decoded, Option.map_some, Option.getD_some]⟩
  rw [toDyadic?_eq] at decoded
  change number.toModel.unpack.isFinite = true
  cases found : number.toModel.unpack with
  | infinity sign => rw [found] at decoded; cases decoded
  | notANumber => rw [found] at decoded; cases decoded
  | zero sign => rfl
  | finite sign mantissa exponent positive => rfl

/-! ## Computed doubles -/

/-- A double that comes out of an operation with this exact result. -/
inductive Computed (exact : ℝ) (number : Float) : Prop where
  | finite : number.isFinite = true → IsRounding exact (real number) → Computed exact number
  | overflow : number.isFinite = false → largest < |exact| → Computed exact number

namespace Computed

variable {exact : ℝ} {number : Float}

theorem isRounding (computed : Computed exact number) (finite : number.isFinite = true) :
    IsRounding exact (real number) := by
  cases computed with
  | finite _ rounding => exact rounding
  | overflow infinite _ => rw [finite] at infinite; cases infinite

theorem isFinite (computed : Computed exact number) (fits : |exact| ≤ largest) :
    number.isFinite = true := by
  cases computed with
  | finite finite _ => exact finite
  | overflow _ above => exact absurd fits (not_le.mpr above)

/-- A number of the grid that is not too large is computed as it is. -/
theorem real_eq (computed : Computed exact number) (onGrid : OnGrid exact)
    (fits : |exact| ≤ largest) : number.isFinite = true ∧ real number = exact := by
  have finite := computed.isFinite fits
  exact ⟨finite, (computed.isRounding finite).eq_of_onGrid onGrid⟩

theorem of_pack {sign : Sign} {parts : UnpackedFloat} {magnitude : ℝ}
    (rounding : IsRounding exact magnitude) (hasMagnitude : HasMagnitude sign parts magnitude) :
    Computed (signed sign exact) (Float.ofModel (Float.Model.pack parts)) := by
  have roundingSigned := rounding.signed sign
  cases hasMagnitude with
  | zero =>
      have found : (Float.ofModel (Float.Model.pack (.zero sign))).toModel.unpack = .zero sign :=
        unpack_packedZero
      refine .finite (isFinite_of_unpack_zero found) ?_
      rwa [real_of_unpack_zero found, ← signed_zero sign]
  | @finite mantissa exponent positive canonical =>
      rcases le_or_gt exponent 971 with small | above
      · have found := canonical.unpack_pack sign positive small
        refine .finite (isFinite_of_unpack_finite found) ?_
        rwa [real_of_unpack_finite found]
      · have found := unpack_pack_of_lt sign positive above
        refine .overflow (isFinite_of_unpack_infinity found) ?_
        by_contra! fits
        rw [abs_signed] at fits
        have within := rounding.abs_le onGrid_largest fits
        exact absurd ((le_abs_self _).trans within) (not_le.mpr (canonical.largest_lt above))

end Computed

end PuzzleKit.Binary64
