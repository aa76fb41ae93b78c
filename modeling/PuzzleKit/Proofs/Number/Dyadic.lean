import Mathlib
import PuzzleKit.Number.Binary64

/-!
# What a double stands for

A finite double stands for an exact number, and its sign is known also where that number is zero.
The significand of a double has at most 53 binary digits, and its encoding determines both the
significand and the unit.
-/

set_option autoImplicit false

namespace PuzzleKit.Binary64

namespace Dyadic

def magnitude (dyadic : Dyadic) : ℚ :=
  dyadic.significand * 2 ^ dyadic.exponent

def value (dyadic : Dyadic) : ℚ :=
  if dyadic.negative then -dyadic.magnitude else dyadic.magnitude

theorem magnitude_nonneg (dyadic : Dyadic) : 0 ≤ dyadic.magnitude :=
  mul_nonneg (Nat.cast_nonneg _) (zpow_nonneg zero_le_two _)

theorem abs_value (dyadic : Dyadic) : |dyadic.value| = dyadic.magnitude := by
  unfold value
  split
  · rw [abs_neg, abs_of_nonneg dyadic.magnitude_nonneg]
  · rw [abs_of_nonneg dyadic.magnitude_nonneg]

theorem abs_magnitude_sub_le (dyadic : Dyadic) {exact : ℚ} (nonneg : 0 ≤ exact) :
    |dyadic.magnitude - exact| ≤ dyadic.magnitude + exact := by
  have bound := abs_sub dyadic.magnitude exact
  rwa [abs_of_nonneg dyadic.magnitude_nonneg, abs_of_nonneg nonneg] at bound

theorem eq_zero_of_abs_sub_eq_add (dyadic : Dyadic) {exact : ℚ} (nonneg : 0 ≤ exact)
    (equal : |dyadic.magnitude - exact| = dyadic.magnitude + exact) :
    dyadic.magnitude = 0 ∨ exact = 0 := by
  rcases le_total exact dyadic.magnitude with le | le
  · rw [abs_of_nonneg (sub_nonneg.mpr le)] at equal
    exact .inr (by linarith)
  · rw [abs_of_nonpos (sub_nonpos.mpr le)] at equal
    exact .inl (by linarith)

/-- Seen from a number of the other sign, a double is as far away as both magnitudes together. -/
theorem abs_value_sub (dyadic : Dyadic) (negative : Bool) {magnitude : ℚ}
    (nonneg : 0 ≤ magnitude) :
    |dyadic.value - if negative then -magnitude else magnitude| =
      if dyadic.negative = negative then |dyadic.magnitude - magnitude|
      else dyadic.magnitude + magnitude := by
  have sumNonneg := add_nonneg dyadic.magnitude_nonneg nonneg
  cases sign : dyadic.negative <;> cases negative <;>
    simp only [value, sign, ↓reduceIte, Bool.false_eq_true, Bool.true_eq_false, sub_neg_eq_add]
  · exact abs_of_nonneg sumNonneg
  · rw [← neg_add', abs_neg, abs_of_nonneg sumNonneg]
  · rw [neg_add_eq_sub, abs_sub_comm]

end Dyadic

/-! ## Encodings -/

/-- The exponent field of an infinity or of a double that is no number has all of its bits set. -/
theorem toBits_ofBits {bits : Nat} (fits : bits < 2 ^ 64) (finite : bits / 2 ^ 52 % 2048 ≠ 2047) :
    (Float.ofBits (UInt64.ofNat bits)).toBits.toNat = bits := by
  have toNatEq : (UInt64.ofNat bits).toNat = bits := UInt64.toNat_ofNat_of_lt' fits
  have valid : Float.Model.Format.binary64.Valid (UInt64.ofNat bits).toBitVec := by
    refine ⟨fun special _ => absurd ?_ finite⟩
    have field := congrArg BitVec.toNat special
    rw [Float.Model.UnpackedFloat.unpackExponent_def, BitVec.extractLsb'_toNat] at field
    rw [← toNatEq, ← Nat.shiftRight_eq_div_pow]
    exact field
  have same : (Float.ofBits (UInt64.ofNat bits)).toBits = UInt64.ofNat bits :=
    UInt64.toBitVec_inj.mp (Float.Model.UnpackedFloat.pack_unpack_of_valid valid)
  rw [same, toNatEq]

/-- The encoding of a magnitude, with the sign in front. -/
def signedBits (negative : Bool) (magnitude : Nat) : Nat :=
  if negative then Nat.pow 2 63 + magnitude else magnitude

theorem toDyadic?_signedBits (negative : Bool) {magnitude : Nat}
    (finite : magnitude < infinityBits) :
    toDyadic? (Float.ofBits (UInt64.ofNat (signedBits negative magnitude))) =
      some (if magnitude / 2 ^ 52 = 0 then ⟨negative, magnitude % 2 ^ 52, finestExponent⟩
        else ⟨negative, 2 ^ 52 + magnitude % 2 ^ 52,
          finestExponent + Int.ofNat (magnitude / 2 ^ 52 - 1)⟩) := by
  have small : magnitude < 2047 * 2 ^ 52 := finite
  have placed : signedBits negative magnitude = negative.toNat * 2 ^ 63 + magnitude := by
    cases negative <;> simp [signedBits]
  have signLe := Bool.toNat_le negative
  have fieldEq : signedBits negative magnitude / 2 ^ 52 % 2048 = magnitude / 2 ^ 52 := by omega
  have fractionEq : signedBits negative magnitude % 2 ^ 52 = magnitude % 2 ^ 52 := by omega
  have negativeIff : 2 ^ 63 ≤ signedBits negative magnitude ↔ negative = true := by
    rw [← Bool.toNat_eq_one]
    omega
  have fits : signedBits negative magnitude < 2 ^ 64 := by omega
  have ordinary : magnitude / 2 ^ 52 ≠ 2047 := by omega
  have bitsEq := toBits_ofBits fits (fieldEq ▸ ordinary)
  simp only [toDyadic?, bitsEq, Nat.pow_eq, fieldEq, fractionEq, negativeIff, if_neg ordinary]
  split <;> simp

/-- A number of units is encoded as it stands, whether it rounds up to the next power of two or
not. If it does, one bit of the significand is lost and the unit doubles. -/
theorem exists_toDyadic?_eq (negative : Bool) {shift count : Nat} (small : count ≤ 2 ^ 53)
    (full : shift = 0 ∨ 2 ^ 52 ≤ count) (finite : shift * 2 ^ 52 + count < infinityBits) :
    ∃ dyadic, toDyadic? (Float.ofBits
        (UInt64.ofNat (signedBits negative (shift * 2 ^ 52 + count)))) = some dyadic ∧
      dyadic.negative = negative ∧
      dyadic.magnitude = count * 2 ^ (finestExponent + shift) ∧
      dyadic.significand % 2 = count % 2 := by
  refine ⟨_, toDyadic?_signedBits negative finite, ?_⟩
  by_cases below : count < 2 ^ 52
  · obtain rfl : shift = 0 := full.resolve_right (by omega)
    rw [Nat.zero_mul, Nat.zero_add, Nat.div_eq_of_lt below, if_pos rfl, Nat.mod_eq_of_lt below]
    simp [Dyadic.magnitude]
  · by_cases carries : count = 2 ^ 53
    · have field : (shift * 2 ^ 52 + count) / 2 ^ 52 = shift + 2 := by omega
      have fraction : (shift * 2 ^ 52 + count) % 2 ^ 52 = 0 := by omega
      rw [field, fraction, if_neg (by omega)]
      refine ⟨rfl, ?_, by rw [carries]; norm_num⟩
      have exponentEq :
          finestExponent + Int.ofNat (shift + 2 - 1) = finestExponent + shift + 1 := by
        rw [Int.ofNat_eq_natCast]
        omega
      rw [Dyadic.magnitude, exponentEq, zpow_add_one₀ two_ne_zero, carries]
      push_cast
      ring
    · have field : (shift * 2 ^ 52 + count) / 2 ^ 52 = shift + 1 := by omega
      have fraction : (shift * 2 ^ 52 + count) % 2 ^ 52 = count - 2 ^ 52 := by omega
      rw [field, fraction, if_neg (by omega), Nat.add_sub_cancel' (by omega)]
      exact ⟨rfl, rfl, rfl⟩

theorem significand_lt_of_toDyadic? {number : Float} {dyadic : Dyadic}
    (found : toDyadic? number = some dyadic) :
    dyadic.significand < 2 ^ 53 ∧ finestExponent ≤ dyadic.exponent := by
  simp only [toDyadic?, Nat.pow_eq] at found
  split at found
  · cases found
  · have fractionLt : number.toBits.toNat % 2 ^ 52 < 2 ^ 52 := Nat.mod_lt _ (by decide)
    split at found
    · cases found
      exact ⟨Nat.lt_trans fractionLt (by decide), le_rfl⟩
    · cases found
      refine ⟨?_, le_add_of_nonneg_right (Int.natCast_nonneg _)⟩
      change 2 ^ 52 + number.toBits.toNat % 2 ^ 52 < 2 ^ 53
      omega

end PuzzleKit.Binary64
