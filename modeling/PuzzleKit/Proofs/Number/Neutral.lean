import Mathlib
import PuzzleKit.Number.Binary64

/-!
# One and zero among the doubles

Multiplying a double by one gives that double. Adding a zero gives it too, except that the sum of
two zeros is a zero whose sign may be another. The sign of a zero is not seen by a comparison, so
one and zero are neutral as far as comparisons can tell.
-/

set_option autoImplicit false

namespace PuzzleKit.Binary64

open Float.Model (UnpackedFloat Format totalExponent)
open Float.Model.UnpackedFloat

/-! ## The parts of a double -/

/-- A mantissa of 53 binary digits, or of fewer if the exponent is the finest. -/
structure Canonical (mantissa : Nat) (exponent : Int) : Prop where
  mantissa_lt : mantissa < 2 ^ 53
  finest_le : finestExponent ≤ exponent
  full : 2 ^ 52 ≤ mantissa ∨ exponent = finestExponent

theorem toNat_implicit_append {width : Nat} (fraction : BitVec width) :
    (1#1 ++ fraction).toNat = 2 ^ width + fraction.toNat := by
  rw [BitVec.toNat_append, ← Nat.shiftLeft_add_eq_or_of_lt fraction.isLt, Nat.shiftLeft_eq]
  exact congrArg (· + fraction.toNat) (Nat.one_mul _)

theorem canonical_of_unpack {bits : BitVec Format.binary64.numBits} {sign : Sign} {mantissa : Nat}
    {exponent : Int} {positive : 0 < mantissa}
    (found : UnpackedFloat.unpack Format.binary64 bits = .finite sign mantissa exponent positive) :
    Canonical mantissa exponent := by
  have bias : (Format.binary64.exponentBias : Int) = 1023 := rfl
  have fractionLt : (unpackMantissa bits).toNat < 2 ^ 52 := BitVec.isLt _
  rw [UnpackedFloat.unpack] at found
  split at found
  · split at found <;> cases found
  · split at found
    · next subnormal =>
        have finest :
            ((unpackExponent bits).toNat : Int) - (Format.binary64.exponentBias + 52) + 1 =
              finestExponent := by
          rw [subnormal]
          rfl
        split at found
        · cases found
        · cases found
          exact ⟨fractionLt.trans (by decide), finest.ge, .inr finest⟩
    · next normal =>
        cases found
        have fieldPos : 0 < (unpackExponent bits).toNat :=
          Nat.pos_of_ne_zero fun zero => normal (BitVec.eq_of_toNat_eq zero)
        have mantissaEq :
            (1#1 ++ unpackMantissa bits).toNat = 2 ^ 52 + (unpackMantissa bits).toNat :=
          toNat_implicit_append _
        have finestLe : finestExponent ≤
            ((unpackExponent bits).toNat : Int) - (Format.binary64.exponentBias + 52) := by
          rw [bias, finestExponent]
          omega
        exact ⟨by omega, finestLe, .inl (by omega)⟩

theorem pack_eq_of_unpack_eq {parts : UnpackedFloat} {number : Float}
    (same : number.toModel.unpack = parts) : Float.ofModel (Float.Model.pack parts) = number := by
  rw [← same]
  exact Float.ofBits_toBits number

theorem unpack_of_isFinite {number : Float} (finite : number.isFinite = true) :
    (∃ sign, number.toModel.unpack = .zero sign) ∨
      ∃ sign mantissa exponent positive,
        number.toModel.unpack = .finite sign mantissa exponent positive := by
  change number.toModel.unpack.isFinite = true at finite
  cases found : number.toModel.unpack with
  | notANumber => rw [found] at finite; cases finite
  | infinity sign => rw [found] at finite; cases finite
  | zero sign => exact .inl ⟨sign, rfl⟩
  | finite sign mantissa exponent positive => exact .inr ⟨sign, mantissa, exponent, positive, rfl⟩

/-! ## Exact rounding -/

theorem log2_mul_two_pow {mantissa : Nat} (positive : 0 < mantissa) (shift : Nat) :
    (mantissa * 2 ^ shift).log2 = mantissa.log2 + shift := by
  induction shift with
  | zero => rw [pow_zero, mul_one, add_zero]
  | succ shift ih =>
      have nonzero : mantissa * 2 ^ shift ≠ 0 := by positivity
      rw [pow_succ', mul_left_comm, Nat.log2_two_mul nonzero, ih, add_assoc]

theorem shiftRight_exact (mantissa shift : Nat) :
    ExtendedMantissa.ofMantissaAndAccuracy (mantissa * 2 ^ shift) .exact >>> shift =
      ExtendedMantissa.ofMantissaAndAccuracy mantissa .exact := by
  induction shift generalizing mantissa with
  | zero => rw [pow_zero, mul_one]; rfl
  | succ shift ih =>
      have doubled : mantissa * 2 ^ (shift + 1) = mantissa * 2 * 2 ^ shift := by
        rw [pow_succ', mul_assoc]
      change ExtendedMantissa.shiftRightOne
        (ExtendedMantissa.ofMantissaAndAccuracy (mantissa * 2 ^ (shift + 1)) .exact >>> shift) = _
      rw [doubled, ih]
      simp [ExtendedMantissa.shiftRightOne, ExtendedMantissa.ofMantissaAndAccuracy]

theorem Canonical.targetExponent_eq {mantissa : Nat} {exponent : Int}
    (canonical : Canonical mantissa exponent) (positive : 0 < mantissa) (shift : Nat) :
    Format.binary64.targetExponent (totalExponent (mantissa * 2 ^ shift) (exponent - shift)) =
      exponent := by
  have bits : (Format.binary64.mantissaBits : Int) = 53 := rfl
  have finest : Format.binary64.minExponent = finestExponent := rfl
  have logLt : mantissa.log2 < 53 := (Nat.log2_lt positive.ne').mpr canonical.mantissa_lt
  have logFull : 52 ≤ mantissa.log2 ∨ exponent = finestExponent :=
    canonical.full.imp_left (Nat.le_log2 positive.ne').mpr
  have finestLe := canonical.finest_le
  rw [Format.targetExponent, totalExponent, log2_mul_two_pow positive, bits, finest]
  omega

theorem Canonical.shiftToTargetExponent_eq {mantissa : Nat} {exponent : Int}
    (canonical : Canonical mantissa exponent) (positive : 0 < mantissa) (shift : Nat) :
    shiftToTargetExponent Format.binary64 (mantissa * 2 ^ shift) (exponent - shift) .exact =
      (ExtendedMantissa.ofMantissaAndAccuracy mantissa .exact, exponent) := by
  have amount : (exponent - (exponent - shift)).toNat = shift := by omega
  rw [shiftToTargetExponent, canonical.targetExponent_eq positive, shiftToExponent, amount,
    shiftRight_exact, sub_add_cancel]

/-- Rounding only takes away zero digits behind a mantissa that fits without them. -/
theorem Canonical.roundWithAccuracy_eq {mantissa : Nat} {exponent : Int}
    (canonical : Canonical mantissa exponent) (positive : 0 < mantissa) (sign : Sign)
    (shift : Nat) :
    roundWithAccuracy Format.binary64 sign (mantissa * 2 ^ shift) (exponent - shift) .exact =
      .finite sign mantissa exponent positive := by
  have unshifted := canonical.shiftToTargetExponent_eq positive 0
  rw [pow_zero, mul_one, Nat.cast_zero, sub_zero] at unshifted
  have rounded : (ExtendedMantissa.ofMantissaAndAccuracy mantissa .exact).roundedMantissa =
      mantissa := rfl
  rw [roundWithAccuracy, canonical.shiftToTargetExponent_eq positive]
  simp only [rounded, unshifted]
  exact dif_neg positive.ne'

/-! ## One -/

theorem float_mul_one (number : Float) : number * 1.0 = number := by
  have product : number.toModel.unpack.mul Format.binary64 (1.0 : Float).toModel.unpack =
      number.toModel.unpack := by
    have one : (1.0 : Float).toModel.unpack = .finite .positive (2 ^ 52) (-52) (by decide) := rfl
    rw [one]
    cases found : number.toModel.unpack with
    | notANumber => rfl
    | infinity sign => cases sign <;> rfl
    | zero sign => cases sign <;> rfl
    | finite sign mantissa exponent positive =>
        have rounded := (canonical_of_unpack found).roundWithAccuracy_eq positive sign 52
        have signEq : sign * .positive = sign := by cases sign <;> rfl
        change roundWithAccuracy Format.binary64 (sign * .positive) (mantissa * 2 ^ 52)
          (exponent - (52 : Nat)) .exact = _
        rw [signEq, rounded]
  exact pack_eq_of_unpack_eq product.symm

/-! ## Zeros -/

/-- One of the two zeros. -/
def IsZero (number : Float) : Prop :=
  ∃ sign, number.toModel.unpack = .zero sign

theorem isZero_pack (sign : Sign) : IsZero (Float.ofModel (Float.Model.pack (.zero sign))) :=
  ⟨sign, unpack_packedZero⟩

theorem isZero_mul {number zero : Float} (finite : number.isFinite = true) (isZero : IsZero zero) :
    IsZero (number * zero) := by
  obtain ⟨sign, zeroEq⟩ := isZero
  change IsZero (Float.ofModel (Float.Model.pack
    (number.toModel.unpack.mul Format.binary64 zero.toModel.unpack)))
  rw [zeroEq]
  obtain ⟨other, found⟩ | ⟨other, mantissa, exponent, positive, found⟩ := unpack_of_isFinite finite
  · rw [found]
    exact isZero_pack (other * sign)
  · rw [found]
    exact isZero_pack (other * sign)

theorem isZero_add {left right : Float} (onLeft : IsZero left) (onRight : IsZero right) :
    IsZero (left + right) := by
  obtain ⟨sign, leftEq⟩ := onLeft
  obtain ⟨other, rightEq⟩ := onRight
  change IsZero (Float.ofModel (Float.Model.pack
    (left.toModel.unpack.add Format.binary64 right.toModel.unpack)))
  rw [leftEq, rightEq]
  cases sign <;> cases other <;> exact isZero_pack _

theorem unpacked_add_zero {parts : UnpackedFloat} (nonzero : ∀ sign, parts ≠ .zero sign)
    (sign : Sign) :
    parts.add Format.binary64 (.zero sign) = parts ∧
      (UnpackedFloat.zero sign).add Format.binary64 parts = parts := by
  cases parts with
  | notANumber => exact ⟨rfl, rfl⟩
  | infinity other => exact ⟨rfl, rfl⟩
  | zero other => exact absurd rfl (nonzero other)
  | finite other mantissa exponent positive => exact ⟨rfl, rfl⟩

theorem add_zero_of_not_isZero {number zero : Float} (isZero : IsZero zero)
    (nonzero : ¬ IsZero number) : number + zero = number ∧ zero + number = number := by
  obtain ⟨sign, zeroEq⟩ := isZero
  obtain ⟨right, left⟩ := unpacked_add_zero (not_exists.mp nonzero) sign
  rw [← zeroEq] at right left
  exact ⟨pack_eq_of_unpack_eq right.symm, pack_eq_of_unpack_eq left.symm⟩

/-! ## What a comparison sees -/

/-- The same double, or two zeros of whatever signs. -/
def EqUpToZeroSign (left right : Float) : Prop :=
  left = right ∨ IsZero left ∧ IsZero right

theorem eqUpToZeroSign_add_zero {zero : Float} (isZero : IsZero zero) (number : Float) :
    EqUpToZeroSign (number + zero) number ∧ EqUpToZeroSign (zero + number) number := by
  by_cases numberZero : IsZero number
  · exact ⟨.inr ⟨isZero_add numberZero isZero, numberZero⟩,
      .inr ⟨isZero_add isZero numberZero, numberZero⟩⟩
  · exact (add_zero_of_not_isZero isZero numberZero).imp .inl .inl

namespace EqUpToZeroSign

theorem isZero {left right : Float} (same : EqUpToZeroSign left right) (zero : IsZero right) :
    IsZero left := by
  obtain rfl | ⟨leftZero, -⟩ := same
  · exact zero
  · exact leftZero

theorem trans {left middle right : Float} (first : EqUpToZeroSign left middle)
    (second : EqUpToZeroSign middle right) : EqUpToZeroSign left right := by
  obtain rfl | ⟨middleZero, rightZero⟩ := second
  · exact first
  · exact .inr ⟨first.isZero middleZero, rightZero⟩

/-- Finite, since a double that is no number does not compare equal to itself. -/
theorem beq {left right : Float} (same : EqUpToZeroSign left right)
    (finite : right.isFinite = true) : (left == right) = true := by
  change (left.toModel.unpack.compare right.toModel.unpack == some .eq) = true
  obtain rfl | ⟨⟨sign, leftEq⟩, other, rightEq⟩ := same
  · obtain ⟨sign, found⟩ | ⟨sign, mantissa, exponent, positive, found⟩ := unpack_of_isFinite finite
    · rw [found]
      rfl
    · rw [found]
      cases sign <;> simp [UnpackedFloat.compare]
  · rw [leftEq, rightEq]
    rfl

end EqUpToZeroSign

end PuzzleKit.Binary64
