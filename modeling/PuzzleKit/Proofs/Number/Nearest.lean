import PuzzleKit.Proofs.Number.Dyadic
import PuzzleKit.Proofs.Number.Rounding

/-!
# The nearest double

Rounding a quotient to the units that fit it gives the double that is nearest to the quotient. A
double with a coarser unit is a whole number of these units as well, and one with a finer unit is
smaller than the smallest number that has 53 binary digits in them; so no double is nearer than the
nearest whole number of units.
-/

set_option autoImplicit false

namespace PuzzleKit.Binary64

/-- A double is nearest to an exact number: no other finite double is nearer, and if one with
another value is equally near, the significand of the chosen one is even. -/
structure Rounds (exact : ℚ) (dyadic : Dyadic) : Prop where
  nearest : ∀ (other : Float) (found : Dyadic), toDyadic? other = some found →
    |dyadic.value - exact| ≤ |found.value - exact|
  even_of_tie : ∀ (other : Float) (found : Dyadic), toDyadic? other = some found →
    |dyadic.value - exact| = |found.value - exact| →
      found.value = dyadic.value ∨ dyadic.significand % 2 = 0

/-- The same of magnitudes, whatever the signs of the doubles are. -/
structure RoundsMagnitude (exact : ℚ) (dyadic : Dyadic) : Prop where
  nearest : ∀ (other : Float) (found : Dyadic), toDyadic? other = some found →
    |dyadic.magnitude - exact| ≤ |found.magnitude - exact|
  even_of_tie : ∀ (other : Float) (found : Dyadic), toDyadic? other = some found →
    |dyadic.magnitude - exact| = |found.magnitude - exact| →
      found.magnitude = dyadic.magnitude ∨ dyadic.significand % 2 = 0

/-! ## Signs -/

section Signs

variable {magnitude : ℚ} {dyadic : Dyadic}

theorem RoundsMagnitude.magnitude_eq_zero (rounds : RoundsMagnitude 0 dyadic) :
    dyadic.magnitude = 0 := by
  have closest := rounds.nearest _ _ (toDyadic?_signedBits false (by decide : 0 < infinityBits))
  rw [sub_zero, sub_zero, abs_of_nonneg dyadic.magnitude_nonneg] at closest
  refine le_antisymm (closest.trans (le_of_eq ?_)) dyadic.magnitude_nonneg
  simp [Dyadic.magnitude]

/-- A double of the same sign is nearest as soon as its magnitude is: the doubles of the other sign
are farther away than their magnitudes. -/
theorem RoundsMagnitude.rounds (near : RoundsMagnitude magnitude dyadic) (nonneg : 0 ≤ magnitude) :
    Rounds (if dyadic.negative then -magnitude else magnitude) dyadic := by
  have own : |dyadic.value - if dyadic.negative then -magnitude else magnitude| =
      |dyadic.magnitude - magnitude| := by
    rw [dyadic.abs_value_sub _ nonneg, if_pos rfl]
  constructor
  · intro other found decoded
    rw [own, found.abs_value_sub _ nonneg]
    split
    · exact near.nearest other found decoded
    · exact (near.nearest other found decoded).trans (found.abs_magnitude_sub_le nonneg)
  · intro other found decoded tie
    rw [own, found.abs_value_sub _ nonneg] at tie
    split at tie
    · next sameSign =>
        refine (near.even_of_tie other found decoded tie).imp_left fun same => ?_
        rw [Dyadic.value, Dyadic.value, same, sameSign]
    · have equal := le_antisymm (near.nearest other found decoded)
        ((found.abs_magnitude_sub_le nonneg).trans (le_of_eq tie.symm))
      refine (near.even_of_tie other found decoded equal).imp_left fun same => ?_
      have zero : dyadic.magnitude = 0 := by
        rcases found.eq_zero_of_abs_sub_eq_add nonneg (equal.symm.trans tie) with zero | rfl
        · rw [← same, zero]
        · exact near.magnitude_eq_zero
      rw [Dyadic.value, Dyadic.value, same, zero, neg_zero, ite_self, ite_self]

end Signs

/-! ## Whole numbers of units -/

/-- The number of units of `2 ^ exponent` that is nearest to a quotient. -/
def roundUnits (numerator denominator : Nat) (exponent : Int) : Nat :=
  let scaled := inUnits numerator denominator exponent
  roundQuotient scaled.1 scaled.2

section Units

variable {numerator denominator : Nat} {exponent : Int}

theorem roundUnits_nearest (numerator : Nat) (positive : 0 < denominator) (exponent : Int)
    (whole : Nat) :
    |(roundUnits numerator denominator exponent : ℚ) * 2 ^ exponent - numerator / denominator| ≤
        |(whole : ℚ) * 2 ^ exponent - numerator / denominator| ∧
      (|(roundUnits numerator denominator exponent : ℚ) * 2 ^ exponent - numerator / denominator| =
          |(whole : ℚ) * 2 ^ exponent - numerator / denominator| →
        whole = roundUnits numerator denominator exponent ∨
          roundUnits numerator denominator exponent % 2 = 0) := by
  let scaled := inUnits numerator denominator exponent
  have unitPos : (0 : ℚ) < 2 ^ exponent := by positivity
  have distance (count : Nat) : |(count : ℚ) * 2 ^ exponent - numerator / denominator| =
      |(count : ℚ) - scaled.1 / scaled.2| * 2 ^ exponent := by
    rw [inUnits_div, ← abs_of_pos unitPos, ← abs_mul, abs_of_pos unitPos, sub_mul,
      div_mul_cancel₀ _ (ne_of_gt unitPos)]
  obtain ⟨near, even⟩ :=
    roundQuotient_nearest scaled.1 (inUnits_pos numerator positive exponent) whole
  rw [distance, distance]
  exact ⟨mul_le_mul_of_nonneg_right near (le_of_lt unitPos),
    fun tie => even (mul_right_cancel₀ (ne_of_gt unitPos) tie)⟩

/-- What has at most 53 digits in a finer unit has fewer than 53 in the coarser one. -/
theorem finer_lt {significand : Nat} {otherExponent : Int} (digits : significand < 2 ^ 53)
    (finer : otherExponent < exponent) :
    (significand : ℚ) * 2 ^ otherExponent < 2 ^ 52 * 2 ^ exponent := by
  calc (significand : ℚ) * 2 ^ otherExponent < 2 ^ 53 * 2 ^ otherExponent := by
        gcongr
        exact_mod_cast digits
    _ = 2 ^ 52 * 2 ^ (otherExponent + 1) := by
        rw [zpow_add_one₀ two_ne_zero]
        ring
    _ ≤ 2 ^ 52 * 2 ^ exponent := by
        gcongr
        · exact one_le_two
        · exact finer

/-- No number of the form of a double is nearer to a quotient than a number of units is. One with a
coarser unit is a number of these units too, and one with a finer unit is below all that have 53
digits in these units. -/
theorem Fits.nearest (positive : 0 < denominator)
    (fits : Fits (numerator / denominator) exponent) {significand : Nat} {otherExponent : Int}
    (digits : significand < 2 ^ 53) (fine : finestExponent ≤ otherExponent) :
    let count := roundUnits numerator denominator exponent
    |(count : ℚ) * 2 ^ exponent - numerator / denominator| ≤
        |(significand : ℚ) * 2 ^ otherExponent - numerator / denominator| ∧
      (|(count : ℚ) * 2 ^ exponent - numerator / denominator| =
          |(significand : ℚ) * 2 ^ otherExponent - numerator / denominator| →
        (significand : ℚ) * 2 ^ otherExponent = count * 2 ^ exponent ∨ count % 2 = 0) := by
  intro count
  rcases le_or_gt exponent otherExponent with coarse | finer
  · have multiple : (significand : ℚ) * 2 ^ otherExponent =
        (significand * 2 ^ (otherExponent - exponent).toNat : Nat) * 2 ^ exponent := by
      push_cast
      rw [← zpow_natCast, Int.toNat_of_nonneg (by omega), mul_assoc, ← zpow_add₀ two_ne_zero,
        sub_add_cancel]
    rw [multiple]
    obtain ⟨near, even⟩ := roundUnits_nearest numerator positive exponent
      (significand * 2 ^ (otherExponent - exponent).toNat)
    exact ⟨near, fun tie => (even tie).imp_left fun same => by rw [same]⟩
  · have reached : (2 : ℚ) ^ 52 * 2 ^ exponent ≤ numerator / denominator :=
      fits.le.resolve_left (by omega)
    have below := finer_lt digits finer
    have near := (roundUnits_nearest numerator positive exponent (2 ^ 52)).1
    rw [Nat.cast_pow, Nat.cast_ofNat, abs_of_nonpos (sub_nonpos.mpr reached)] at near
    have farther : |(count : ℚ) * 2 ^ exponent - numerator / denominator| <
        |(significand : ℚ) * 2 ^ otherExponent - numerator / denominator| := by
      rw [abs_of_nonpos (sub_nonpos.mpr (le_of_lt (lt_of_lt_of_le below reached)))]
      linarith
    exact ⟨le_of_lt farther, fun tie => absurd tie (ne_of_lt farther)⟩

theorem Fits.roundsMagnitude (positive : 0 < denominator)
    (fits : Fits (numerator / denominator) exponent) {dyadic : Dyadic}
    (magnitude : dyadic.magnitude = roundUnits numerator denominator exponent * 2 ^ exponent)
    (parity : dyadic.significand % 2 = roundUnits numerator denominator exponent % 2) :
    RoundsMagnitude (numerator / denominator) dyadic := by
  constructor
  · intro other found decoded
    obtain ⟨digits, fine⟩ := significand_lt_of_toDyadic? decoded
    rw [magnitude]
    exact (fits.nearest positive digits fine).1
  · intro other found decoded
    obtain ⟨digits, fine⟩ := significand_lt_of_toDyadic? decoded
    rw [magnitude, parity]
    exact (fits.nearest positive digits fine).2

theorem Fits.roundUnits_le (positive : 0 < denominator)
    (fits : Fits (numerator / denominator) exponent) :
    roundUnits numerator denominator exponent ≤ 2 ^ 53 := by
  have unitPos : (0 : ℚ) < 2 ^ exponent := by positivity
  apply roundQuotient_le (inUnits_pos numerator positive exponent)
  rw [inUnits_div, div_le_iff₀ unitPos]
  exact_mod_cast le_of_lt fits.lt

theorem Fits.le_roundUnits (positive : 0 < denominator)
    (fits : Fits (numerator / denominator) exponent) :
    exponent = finestExponent ∨ 2 ^ 52 ≤ roundUnits numerator denominator exponent := by
  refine fits.le.imp_right fun reached => ?_
  have unitPos : (0 : ℚ) < 2 ^ exponent := by positivity
  apply le_roundQuotient (inUnits_pos numerator positive exponent)
  rw [inUnits_div, le_div_iff₀ unitPos]
  exact_mod_cast reached

/-- Below `2 ^ 1023` the exponent field has room, also for a number that rounds up. -/
theorem Fits.exponent_le {exact : ℚ} (fits : Fits exact exponent) (small : exact < 2 ^ 1023) :
    exponent ≤ 970 := by
  rcases fits.le with rfl | reached
  · decide
  · have powerLt : (2 : ℚ) ^ (52 + exponent) < 2 ^ (1023 : Int) := by
      rw [zpow_add₀ two_ne_zero]
      exact_mod_cast lt_of_le_of_lt reached small
    have exponentLt := (zpow_lt_zpow_iff_right₀ one_lt_two).mp powerLt
    omega

end Units

/-! ## The encoded number -/

section Encoded

variable {numerator denominator : Nat}

theorem magnitudeBits_eq (filled : numerator ≠ 0) :
    let exponent := unitExponent numerator denominator
    magnitudeBits numerator denominator =
      min infinityBits ((exponent - finestExponent).toNat * 2 ^ 52 +
        roundUnits numerator denominator exponent) := by
  intro exponent
  exact if_neg filled

/-- The number of units is encoded without overflow, as long as the quotient is small. -/
theorem exists_toDyadic?_nearest (negative : Bool) (filled : numerator ≠ 0)
    (positive : 0 < denominator) (small : (numerator : ℚ) / denominator < 2 ^ 1023) :
    let exponent := unitExponent numerator denominator
    let count := roundUnits numerator denominator exponent
    ∃ dyadic, toDyadic? (nearest negative numerator denominator) = some dyadic ∧
      dyadic.negative = negative ∧ dyadic.magnitude = count * 2 ^ exponent ∧
      dyadic.significand % 2 = count % 2 := by
  intro exponent count
  have fits : Fits (numerator / denominator) exponent :=
    unitExponent_fits filled (Nat.ne_of_gt positive)
  have countLe : count ≤ 2 ^ 53 := fits.roundUnits_le positive
  have full : (exponent - finestExponent).toNat = 0 ∨ 2 ^ 52 ≤ count :=
    (fits.le_roundUnits positive).imp_left fun finest => by
      rw [finest, sub_self, Int.toNat_zero]
  have finite : (exponent - finestExponent).toNat * 2 ^ 52 + count < infinityBits := by
    have exponentLe := fits.exponent_le small
    have finestEq : finestExponent = -1074 := rfl
    change _ < 2047 * 2 ^ 52
    omega
  obtain ⟨dyadic, decoded, sign, magnitude, parity⟩ :=
    exists_toDyadic?_eq negative countLe full finite
  refine ⟨dyadic, ?_, sign, ?_, parity⟩
  · rw [← min_eq_right (le_of_lt finite), ← magnitudeBits_eq filled] at decoded
    exact decoded
  · rw [magnitude, Int.toNat_of_nonneg (sub_nonneg.mpr fits.finest_le), add_sub_cancel]

/-- A quotient is rounded to the nearest double, which has the sign that was asked for also where
it is zero. -/
theorem nearest_rounds (negative : Bool) (positive : 0 < denominator)
    (small : (numerator : ℚ) / denominator < 2 ^ 1023) :
    ∃ dyadic, toDyadic? (nearest negative numerator denominator) = some dyadic ∧
      dyadic.negative = negative ∧
      Rounds (if negative then -((numerator : ℚ) / denominator) else numerator / denominator)
        dyadic := by
  have nonneg : (0 : ℚ) ≤ numerator / denominator :=
    div_nonneg (Nat.cast_nonneg _) (Nat.cast_nonneg _)
  suffices near : ∃ dyadic, toDyadic? (nearest negative numerator denominator) = some dyadic ∧
      dyadic.negative = negative ∧ RoundsMagnitude (numerator / denominator) dyadic by
    obtain ⟨dyadic, decoded, rfl, rounds⟩ := near
    exact ⟨dyadic, decoded, rfl, rounds.rounds nonneg⟩
  by_cases filled : numerator = 0
  · subst numerator
    obtain ⟨dyadic, decoded, sign, magnitude, parity⟩ :=
      exists_toDyadic?_eq negative (Nat.zero_le _) (.inl rfl)
        (by decide : 0 * 2 ^ 52 + 0 < infinityBits)
    rw [Nat.cast_zero, zero_mul] at magnitude
    refine ⟨dyadic, decoded, sign, fun _ found _ => ?_, fun _ _ _ _ => .inr parity⟩
    rw [magnitude, Nat.cast_zero, zero_div, sub_zero, abs_zero]
    exact abs_nonneg _
  · obtain ⟨dyadic, decoded, sign, magnitude, parity⟩ :=
      exists_toDyadic?_nearest negative filled positive small
    exact ⟨dyadic, decoded, sign,
      (unitExponent_fits filled (Nat.ne_of_gt positive)).roundsMagnitude positive magnitude parity⟩

end Encoded

/-! ## Numbers near a power of two -/

theorem exists_toDyadic?_two_pow (negative : Bool) {power : Nat} (finite : power ≤ 1023) :
    ∃ number dyadic, toDyadic? number = some dyadic ∧ dyadic.negative = negative ∧
      dyadic.magnitude = 2 ^ power := by
  have encodes : (power + 1022) * 2 ^ 52 + 2 ^ 52 < infinityBits := by
    change _ < 2047 * 2 ^ 52
    omega
  obtain ⟨dyadic, decoded, sign, magnitude, _⟩ :=
    exists_toDyadic?_eq negative (by decide : 2 ^ 52 ≤ 2 ^ 53) (.inr le_rfl) encodes
  refine ⟨_, dyadic, decoded, sign, ?_⟩
  have exponentEq : (52 : Nat) + (finestExponent + (power + 1022 : Nat)) = (power : Int) := by
    have finestEq : finestExponent = -1074 := rfl
    omega
  rw [magnitude, Nat.cast_pow, Nat.cast_ofNat, ← zpow_natCast, ← zpow_add₀ two_ne_zero,
    exponentEq, zpow_natCast]

theorem Dyadic.lt_exponent_of_two_pow_lt {dyadic : Dyadic} (digits : dyadic.significand < 2 ^ 53)
    {power : Nat} (above : 2 ^ power < dyadic.magnitude) : power < 53 + dyadic.exponent := by
  have unitPos : (0 : ℚ) < 2 ^ dyadic.exponent := by positivity
  have powerLt : (2 : ℚ) ^ (power : Int) < 2 ^ (53 + dyadic.exponent) := by
    calc (2 : ℚ) ^ (power : Int) = 2 ^ power := zpow_natCast _ _
      _ < dyadic.significand * 2 ^ dyadic.exponent := above
      _ < 2 ^ 53 * 2 ^ dyadic.exponent := by
          gcongr
          exact_mod_cast digits
      _ = 2 ^ (53 + dyadic.exponent) := by
          rw [zpow_add₀ two_ne_zero]
          rfl
  exact (zpow_lt_zpow_iff_right₀ one_lt_two).mp powerLt

/-- From `2 ^ 53` on, only even numbers are doubles. -/
theorem add_two_le_magnitude {number : Float} {dyadic : Dyadic}
    (decoded : toDyadic? number = some dyadic) {power : Nat} (large : 53 ≤ power)
    (above : 2 ^ power < dyadic.magnitude) : 2 ^ power + 2 ≤ dyadic.magnitude := by
  obtain ⟨digits, _⟩ := significand_lt_of_toDyadic? decoded
  have exponentPos := Dyadic.lt_exponent_of_two_pow_lt digits above
  obtain ⟨unit, exponentEq⟩ : ∃ unit : Nat, dyadic.exponent = (unit + 1 : Nat) :=
    ⟨(dyadic.exponent - 1).toNat, by omega⟩
  obtain ⟨half, rfl⟩ : ∃ half, power = half + 1 := ⟨power - 1, by omega⟩
  have even : dyadic.magnitude = (2 * (dyadic.significand * 2 ^ unit) : Nat) := by
    rw [Dyadic.magnitude, exponentEq, zpow_natCast, pow_succ]
    push_cast
    ring
  have powerEq : (2 : ℚ) ^ (half + 1) = (2 * 2 ^ half : Nat) := by
    push_cast
    ring
  rw [even, powerEq] at above ⊢
  have halvesLt : 2 * 2 ^ half < 2 * (dyadic.significand * 2 ^ unit) := by exact_mod_cast above
  have nextLe : 2 * 2 ^ half + 2 ≤ 2 * (dyadic.significand * 2 ^ unit) := by omega
  exact_mod_cast nextLe

/-- A number less than one above a large power of two is not rounded past that power. -/
theorem Rounds.abs_value_le {number : Float} {dyadic : Dyadic} {magnitude : ℚ}
    (rounds : Rounds (if dyadic.negative then -magnitude else magnitude) dyadic)
    (decoded : toDyadic? number = some dyadic) (nonneg : 0 ≤ magnitude) {power : Nat}
    (large : 53 ≤ power) (finite : power ≤ 1023) (below : magnitude < 2 ^ power + 1) :
    |dyadic.value| ≤ 2 ^ power := by
  obtain ⟨other, found, otherDecoded, sameSign, foundEq⟩ :=
    exists_toDyadic?_two_pow dyadic.negative finite
  have near := rounds.nearest other found otherDecoded
  rw [dyadic.abs_value_sub _ nonneg, found.abs_value_sub _ nonneg, if_pos rfl, if_pos sameSign,
    foundEq] at near
  rw [dyadic.abs_value]
  by_contra! above
  have apart := add_two_le_magnitude decoded large above
  have farther := le_trans (le_abs_self _) near
  rcases abs_cases ((2 : ℚ) ^ power - magnitude) with ⟨distance, _⟩ | ⟨distance, _⟩ <;>
    rw [distance] at farther <;> linarith

end PuzzleKit.Binary64
