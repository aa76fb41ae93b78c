import PuzzleKit.Linear.Angle
import PuzzleKit.Proofs.Linear.DotError
import PuzzleKit.Proofs.Number.Order
import PuzzleKit.Proofs.Number.Whole

/-!
# When two vectors have an angle

Without rounding a cosine is never above one. Rounding can carry it there: a vector and itself may
have a cosine above one, and then no angle. The angle is a number as soon as the vectors are not too
close to parallel, by a margin that grows with their order, and their squares do not underflow.
-/

set_option autoImplicit false

namespace PuzzleKit.Vec

open Binary64 (real roundoff roundoff_pos leastNormal leastNormal_pos leastNormal_le_one largest
  IsRounding IsWhole)

variable {n : Nat}

/-! ## Exact products and lengths -/

/-- The dot product without rounding. -/
noncomputable def exactDot (left right : Vec Float n) : ℝ :=
  ∑ index, real (left.get index) * real (right.get index)

theorem exactDot_three (x y z otherX otherY otherZ : Float) :
    exactDot (⟨#v[x, y, z]⟩ : Vec Float 3) ⟨#v[otherX, otherY, otherZ]⟩ =
      real x * real otherX + real y * real otherY + real z * real otherZ :=
  Fin.sum_univ_three _

/-- The length without rounding. -/
noncomputable def exactNorm (vector : Vec Float n) : ℝ :=
  √(vector.exactDot vector)

theorem exactDot_self_nonneg (vector : Vec Float n) : 0 ≤ vector.exactDot vector :=
  Finset.sum_nonneg fun _ _ => mul_self_nonneg _

theorem exactNorm_nonneg (vector : Vec Float n) : 0 ≤ vector.exactNorm :=
  Real.sqrt_nonneg _

theorem exactNorm_mul_self (vector : Vec Float n) :
    vector.exactNorm * vector.exactNorm = vector.exactDot vector :=
  Real.mul_self_sqrt vector.exactDot_self_nonneg

/-- The inequality of Cauchy and Schwarz, also for the magnitudes of the terms. -/
theorem sum_abs_term_le (left right : Vec Float n) :
    ∑ index, |exactTerm left.get right.get index| ≤ left.exactNorm * right.exactNorm := by
  have bound := Real.sum_mul_le_sqrt_mul_sqrt Finset.univ (fun index => |real (left.get index)|)
    (fun index => |real (right.get index)|)
  simp only [sq_abs] at bound
  simp only [pow_two, ← abs_mul] at bound
  exact bound

/-- Some of the terms alone do not come to more than halfway between the whole and the lengths. -/
theorem two_mul_abs_sum_part_le (left right : Vec Float n) (part : Finset (Fin n)) :
    2 * |∑ index ∈ part, exactTerm left.get right.get index| ≤
      |left.exactDot right| + left.exactNorm * right.exactNorm := by
  have split : left.exactDot right = ∑ index ∈ part, exactTerm left.get right.get index +
      ∑ index ∈ partᶜ, exactTerm left.get right.get index :=
    (Finset.sum_add_sum_compl part _).symm
  have splitAbs := Finset.sum_add_sum_compl part fun index => |exactTerm left.get right.get index|
  have partLe := Finset.abs_sum_le_sum_abs (exactTerm left.get right.get) part
  have othersLe := Finset.abs_sum_le_sum_abs (exactTerm left.get right.get) partᶜ
  have lengths := left.sum_abs_term_le right
  have triangle := abs_sub_abs_le_abs_sub (∑ index ∈ part, exactTerm left.get right.get index)
    (-∑ index ∈ partᶜ, exactTerm left.get right.get index)
  rw [abs_neg, sub_neg_eq_add, ← split] at triangle
  linarith

/-! ## Vectors without underflow -/

/-- The squares of the components are not lost among the smallest numbers. -/
def IsNormal (vector : Vec Float n) : Prop :=
  n * leastNormal ≤ vector.exactDot vector

theorem IsNormal.le_mul {left right : Vec Float n} (onLeft : left.IsNormal)
    (onRight : right.IsNormal) : n * leastNormal ≤ left.exactNorm * right.exactNorm := by
  have leastNonneg : 0 ≤ n * leastNormal := mul_nonneg (Nat.cast_nonneg n) leastNormal_pos.le
  calc n * leastNormal = √(n * leastNormal) * √(n * leastNormal) :=
        (Real.mul_self_sqrt leastNonneg).symm
    _ ≤ left.exactNorm * right.exactNorm :=
        mul_le_mul (Real.sqrt_le_sqrt onLeft) (Real.sqrt_le_sqrt onRight) (Real.sqrt_nonneg _)
          left.exactNorm_nonneg

/-- What the error of a dot product is relative to is at most twice the product of the lengths. -/
theorem IsNormal.sum_termScale_le {left right : Vec Float n} (onLeft : left.IsNormal)
    (onRight : right.IsNormal) :
    ∑ index, termScale left.get right.get index ≤ 2 * (left.exactNorm * right.exactNorm) := by
  calc ∑ index, termScale left.get right.get index
      ≤ ∑ index, (|exactTerm left.get right.get index| + leastNormal) :=
        Finset.sum_le_sum fun _ _ => max_le_add_of_nonneg (abs_nonneg _) leastNormal_pos.le
    _ = ∑ index, |exactTerm left.get right.get index| + n * leastNormal := by
        rw [Finset.sum_add_distrib, Finset.sum_const, Finset.card_univ, Fintype.card_fin,
          nsmul_eq_mul]
    _ ≤ 2 * (left.exactNorm * right.exactNorm) := by
        rw [two_mul]
        exact add_le_add (left.sum_abs_term_le right) (onLeft.le_mul onRight)

theorem IsNormal.abs_dot_sub_le {left right : Vec Float n} (onLeft : left.IsNormal)
    (onRight : right.IsNormal) (finite : (left.dot right).isFinite = true) :
    |real (left.dot right) - left.exactDot right| ≤
      2 * errorShare n * (left.exactNorm * right.exactNorm) := by
  calc |real (left.dot right) - left.exactDot right|
      ≤ errorShare n * ∑ index, termScale left.get right.get index := sumOfProducts_error finite
    _ ≤ errorShare n * (2 * (left.exactNorm * right.exactNorm)) :=
        mul_le_mul_of_nonneg_left (onLeft.sum_termScale_le onRight) (errorShare_nonneg n)
    _ = 2 * errorShare n * (left.exactNorm * right.exactNorm) := by ring

/-! ## Norms -/

/-- A rounded result that is not far below a limit stays not far below it. -/
theorem share_mul_le_of_isRounding {exact result share limit : ℝ}
    (rounding : IsRounding exact result) (shareNonneg : 0 ≤ share) (shareLe : share ≤ 1)
    (normal : leastNormal ≤ limit) (ge : share * limit ≤ exact) :
    (share - roundoff) * limit ≤ result := by
  have roundoffLe : roundoff ≤ 1 := by
    rw [roundoff]
    norm_num
  have limitPos : 0 < limit := leastNormal_pos.trans_le normal
  have exactNonneg : 0 ≤ exact := (mul_nonneg shareNonneg limitPos.le).trans ge
  have error := (abs_le.mp rounding.abs_sub_le).1
  rw [abs_of_nonneg exactNonneg] at error
  rcases le_total exact limit with below | above
  · have scaleLe := mul_le_mul_of_nonneg_left (max_le below normal) roundoff_pos.le
    linarith
  · rw [max_eq_left (normal.trans above)] at error
    calc (share - roundoff) * limit ≤ (1 - roundoff) * limit := by gcongr
      _ ≤ (1 - roundoff) * exact := mul_le_mul_of_nonneg_left above (sub_nonneg.mpr roundoffLe)
      _ ≤ result := by linarith

theorem isFinite_of_norm {vector : Vec Float n} (finite : vector.norm.isFinite = true) :
    (vector.dot vector).isFinite = true ∧ 0 ≤ real (vector.dot vector) ∧
      ∀ index, (vector.get index).isFinite = true := by
  obtain ⟨dotFinite, dotNonneg⟩ := Binary64.isFinite_of_sqrt finite
  exact ⟨dotFinite, dotNonneg, fun index => (isFinite_of_sumOfProducts dotFinite index).1⟩

section Norm

variable {vector : Vec Float n}

theorem IsNormal.le_dot_self (normal : vector.IsNormal)
    (finite : (vector.dot vector).isFinite = true) :
    (1 - 2 * errorShare n) * vector.exactDot vector ≤ real (vector.dot vector) := by
  have error := (abs_le.mp (normal.abs_dot_sub_le normal finite)).1
  rw [exactNorm_mul_self] at error
  linarith

theorem IsNormal.leastNormal_le_exactNorm (normal : vector.IsNormal) (filled : 0 < n) :
    leastNormal ≤ vector.exactNorm := by
  have countGe : (1 : ℝ) ≤ n := by exact_mod_cast filled
  refine Real.le_sqrt_of_sq_le ?_
  calc leastNormal ^ 2 = leastNormal * leastNormal := pow_two _
    _ ≤ 1 * leastNormal := mul_le_mul_of_nonneg_right leastNormal_le_one leastNormal_pos.le
    _ ≤ n * leastNormal := mul_le_mul_of_nonneg_right countGe leastNormal_pos.le
    _ ≤ vector.exactDot vector := normal

theorem IsNormal.lengths_pos {left right : Vec Float n} (onLeft : left.IsNormal)
    (onRight : right.IsNormal) (filled : 0 < n) : 0 < left.exactNorm * right.exactNorm :=
  mul_pos (leastNormal_pos.trans_le (onLeft.leastNormal_le_exactNorm filled))
    (leastNormal_pos.trans_le (onRight.leastNormal_le_exactNorm filled))

/-- A computed length keeps all but a small share of the exact one. -/
theorem IsNormal.le_norm (normal : vector.IsNormal) (filled : 0 < n)
    (room : 0 ≤ 1 - 2 * errorShare n) (finite : vector.norm.isFinite = true) :
    (1 - 2 * errorShare n - roundoff) * vector.exactNorm ≤ real vector.norm := by
  obtain ⟨dotFinite, dotNonneg, -⟩ := isFinite_of_norm finite
  have rounding := (Binary64.computed_sqrt dotFinite dotNonneg).isRounding finite
  have shareLe : 1 - 2 * errorShare n ≤ 1 := by linarith [errorShare_nonneg n]
  refine share_mul_le_of_isRounding rounding room shareLe
    (normal.leastNormal_le_exactNorm filled) ?_
  refine Real.le_sqrt_of_sq_le ?_
  calc ((1 - 2 * errorShare n) * vector.exactNorm) ^ 2
      = (1 - 2 * errorShare n) * ((1 - 2 * errorShare n) * vector.exactDot vector) := by
        rw [← exactNorm_mul_self]
        ring
    _ ≤ 1 * ((1 - 2 * errorShare n) * vector.exactDot vector) :=
        mul_le_mul_of_nonneg_right shareLe
          (mul_nonneg room vector.exactDot_self_nonneg)
    _ ≤ real (vector.dot vector) := by
        rw [one_mul]
        exact normal.le_dot_self dotFinite

/-- Two computed lengths and their product lose a small share of the exact ones each. -/
theorem IsNormal.le_mul_norm {left right : Vec Float n} (onLeft : left.IsNormal)
    (onRight : right.IsNormal) (filled : 0 < n) (room : 0 ≤ 1 - 2 * errorShare n - roundoff)
    (finite : (left.norm * right.norm).isFinite = true) :
    (1 - 4 * errorShare n - 3 * roundoff) * (left.exactNorm * right.exactNorm) ≤
      real (left.norm * right.norm) := by
  obtain ⟨leftFinite, rightFinite⟩ := Binary64.isFinite_of_mul finite
  have lengthsPos := onLeft.lengths_pos onRight filled
  have roomDot : 0 ≤ 1 - 2 * errorShare n := by linarith [roundoff_pos]
  have roomLe : 1 - 2 * errorShare n - roundoff ≤ 1 := by
    linarith [roundoff_pos, errorShare_nonneg n]
  have leftLe := onLeft.le_norm filled roomDot leftFinite
  have rightLe := onRight.le_norm filled roomDot rightFinite
  have leastLe : leastNormal ≤ left.exactNorm * right.exactNorm := by
    have countGe : (1 : ℝ) ≤ n := by exact_mod_cast filled
    exact (le_mul_of_one_le_left leastNormal_pos.le countGe).trans (onLeft.le_mul onRight)
  generalize shareEq : 1 - 2 * errorShare n - roundoff = share at *
  have normsGe : share ^ 2 * (left.exactNorm * right.exactNorm) ≤
      real left.norm * real right.norm := by
    calc share ^ 2 * (left.exactNorm * right.exactNorm)
        = (share * left.exactNorm) * (share * right.exactNorm) := by ring
      _ ≤ real left.norm * real right.norm :=
          mul_le_mul leftLe rightLe (mul_nonneg room right.exactNorm_nonneg)
            ((mul_nonneg room left.exactNorm_nonneg).trans leftLe)
  have productGe := share_mul_le_of_isRounding
    ((Binary64.computed_mul leftFinite rightFinite).isRounding finite) (sq_nonneg share)
    (pow_le_one₀ room roomLe) leastLe normsGe
  refine le_trans (mul_le_mul_of_nonneg_right ?_ lengthsPos.le) productGe
  rw [← shareEq]
  linarith [sq_nonneg (2 * errorShare n + roundoff)]

end Norm

/-! ## Vectors that are not too close to parallel -/

theorem one_add_pow_le {error : ℝ} (nonneg : 0 ≤ error) {steps : Nat}
    (small : steps * error ≤ 1 / 2) : (1 + error) ^ steps ≤ 1 + 2 * steps * error := by
  induction steps with
  | zero => simp
  | succ steps ih =>
      push_cast at small ⊢
      have squares : steps * error * error ≤ 1 / 2 * error :=
        mul_le_mul_of_nonneg_right (by linarith) nonneg
      calc (1 + error) ^ (steps + 1) = (1 + error) ^ steps * (1 + error) := pow_succ _ _
        _ ≤ (1 + 2 * steps * error) * (1 + error) := by
            gcongr
            exact ih (by linarith)
        _ ≤ 1 + 2 * (steps + 1) * error := by linarith

/-- The margin that vectors of this order keep from being parallel. -/
noncomputable def margin (n : Nat) : ℝ :=
  (16 * (n + 2) : Nat) * roundoff

theorem errorShare_le_margin (small : margin n ≤ 1) :
    errorShare n + 2 * roundoff ≤ margin n / 8 := by
  rw [margin] at small ⊢
  push_cast at small ⊢
  have stepsNonneg : 0 ≤ n * roundoff := mul_nonneg (Nat.cast_nonneg n) roundoff_pos.le
  have errorSmall : ((n + 1 : Nat) : ℝ) * roundoff ≤ 1 / 2 := by
    push_cast
    linarith [roundoff_pos]
  have growth := one_add_pow_le roundoff_pos.le errorSmall
  push_cast at growth
  rw [errorShare]
  linarith

/-- The exact cosine keeps a distance from one and from minus one. -/
def IsApart (left right : Vec Float n) : Prop :=
  |left.exactDot right| ≤ (1 - margin n) * (left.exactNorm * right.exactNorm)

section Apart

variable {left right : Vec Float n}

theorem IsApart.margin_le_one (apart : left.IsApart right)
    (lengthsPos : 0 < left.exactNorm * right.exactNorm) : margin n ≤ 1 := by
  have shareNonneg := (abs_nonneg _).trans apart
  linarith [nonneg_of_mul_nonneg_left shareNonneg lengthsPos]

/-- The lengths are not far above the largest double, as their squares are not. -/
theorem IsNormal.lengths_le_largest (onLeft : left.IsNormal) (onRight : right.IsNormal)
    (room : 0 ≤ 1 - 2 * errorShare n) (leftFinite : (left.dot left).isFinite = true)
    (rightFinite : (right.dot right).isFinite = true) :
    (1 - 2 * errorShare n) * (left.exactNorm * right.exactNorm) ≤ largest := by
  have leftLe := (onLeft.le_dot_self leftFinite).trans
    ((le_abs_self _).trans (Binary64.abs_real_le_largest leftFinite))
  have rightLe := (onRight.le_dot_self rightFinite).trans
    ((le_abs_self _).trans (Binary64.abs_real_le_largest rightFinite))
  have largestNonneg : 0 ≤ largest := (mul_nonneg room left.exactDot_self_nonneg).trans leftLe
  refine le_of_sq_le_sq ?_ largestNonneg
  calc ((1 - 2 * errorShare n) * (left.exactNorm * right.exactNorm)) ^ 2
      = ((1 - 2 * errorShare n) * left.exactDot left) *
          ((1 - 2 * errorShare n) * right.exactDot right) := by
        rw [← exactNorm_mul_self, ← exactNorm_mul_self]
        ring
    _ ≤ largest * largest :=
        mul_le_mul leftLe rightLe (mul_nonneg room right.exactDot_self_nonneg) largestNonneg
    _ = largest ^ 2 := (pow_two _).symm

/-- The terms may cancel in the end, so every part of the sum has to fit on the way. -/
theorem IsApart.isFinite_dot (apart : left.IsApart right) (onLeft : left.IsNormal)
    (onRight : right.IsNormal) (filled : 0 < n) (leftFinite : left.norm.isFinite = true)
    (rightFinite : right.norm.isFinite = true) : (left.dot right).isFinite = true := by
  have lengthsPos := onLeft.lengths_pos onRight filled
  obtain ⟨leftDotFinite, -, leftComponents⟩ := isFinite_of_norm leftFinite
  obtain ⟨rightDotFinite, -, rightComponents⟩ := isFinite_of_norm rightFinite
  have shareLe := errorShare_le_margin (apart.margin_le_one lengthsPos)
  have shareNonneg := errorShare_nonneg n
  have room : 0 ≤ 1 - 2 * errorShare n := by
    linarith [roundoff_pos, apart.margin_le_one lengthsPos]
  refine isFinite_sumOfProducts leftComponents rightComponents fun part => ?_
  have partLe := left.two_mul_abs_sum_part_le right part
  have scalesLe := mul_le_mul_of_nonneg_left (onLeft.sum_termScale_le onRight) shareNonneg
  have apartLe : |left.exactDot right| ≤
      (1 - 8 * errorShare n) * (left.exactNorm * right.exactNorm) := by
    refine apart.trans (mul_le_mul_of_nonneg_right ?_ lengthsPos.le)
    linarith [roundoff_pos]
  refine le_trans ?_ (onLeft.lengths_le_largest onRight room leftDotFinite rightDotFinite)
  linarith

/-- The computed lengths multiply to at least as much as the computed dot product. -/
theorem IsApart.abs_dot_le (apart : left.IsApart right) (onLeft : left.IsNormal)
    (onRight : right.IsNormal) (filled : 0 < n)
    (finite : (left.norm * right.norm).isFinite = true)
    (dotFinite : (left.dot right).isFinite = true) :
    |real (left.dot right)| ≤ real (left.norm * right.norm) := by
  have lengthsPos := onLeft.lengths_pos onRight filled
  have marginLe := apart.margin_le_one lengthsPos
  have shareLe := errorShare_le_margin marginLe
  have shareNonneg := errorShare_nonneg n
  calc |real (left.dot right)|
      ≤ |left.exactDot right| + |real (left.dot right) - left.exactDot right| := by
        have triangle := abs_add_le (left.exactDot right)
          (real (left.dot right) - left.exactDot right)
        rwa [add_sub_cancel] at triangle
    _ ≤ (1 - margin n) * (left.exactNorm * right.exactNorm) +
          2 * errorShare n * (left.exactNorm * right.exactNorm) :=
        add_le_add apart (onLeft.abs_dot_sub_le onRight dotFinite)
    _ = (1 - margin n + 2 * errorShare n) * (left.exactNorm * right.exactNorm) := by ring
    _ ≤ (1 - 4 * errorShare n - 3 * roundoff) * (left.exactNorm * right.exactNorm) := by
        refine mul_le_mul_of_nonneg_right ?_ lengthsPos.le
        linarith [roundoff_pos]
    _ ≤ real (left.norm * right.norm) :=
        onLeft.le_mul_norm onRight filled (by linarith [roundoff_pos]) finite

end Apart

/-! ## The angle -/

theorem norm_nonneg {vector : Vec Float n} (finite : vector.norm.isFinite = true) :
    0 ≤ real vector.norm := by
  obtain ⟨dotFinite, dotNonneg, -⟩ := isFinite_of_norm finite
  exact ((Binary64.computed_sqrt dotFinite dotNonneg).isRounding finite).ge_of_ge
    Binary64.onGrid_zero (Real.sqrt_nonneg _)

/-- A vector without components has no length. -/
theorem order_pos {left right : Vec Float n} (finite : (left.norm * right.norm).isFinite = true)
    (nonzero : real (left.norm * right.norm) ≠ 0) : 0 < n := by
  rcases Nat.eq_zero_or_pos n with rfl | filled
  · obtain ⟨leftFinite, rightFinite⟩ := Binary64.isFinite_of_mul finite
    have product := (Binary64.computed_mul leftFinite rightFinite).isRounding finite
    have empty : left.norm = (-0.0 : Float).sqrt := by
      rw [norm, dot, List.ofFn_zero]
      rfl
    have found : left.norm.toModel.unpack = .zero .negative := by
      rw [empty]
      rfl
    rw [Binary64.real_of_unpack_zero found, zero_mul] at product
    exact absurd (product.eq_of_onGrid Binary64.onGrid_zero) nonzero
  · exact filled

theorem real_norms_pos {left right : Vec Float n}
    (finite : (left.norm * right.norm).isFinite = true)
    (nonzero : (left.norm * right.norm == 0.0) = false) :
    0 < real (left.norm * right.norm) := by
  obtain ⟨leftFinite, rightFinite⟩ := Binary64.isFinite_of_mul finite
  have nonneg := ((Binary64.computed_mul leftFinite rightFinite).isRounding finite).ge_of_ge
    Binary64.onGrid_zero (mul_nonneg (norm_nonneg leftFinite) (norm_nonneg rightFinite))
  refine lt_of_le_of_ne nonneg (Ne.symm ?_)
  exact Binary64.real_ne_zero finite nonzero

section Cosine

variable {left right : Vec Float n}

theorem cosine_between_minusOne_one_iff (cosineFinite : (left.cosine right).isFinite = true) :
    (-1.0 ≤ left.cosine right ∧ left.cosine right ≤ 1.0) ↔ |real (left.cosine right)| ≤ 1 := by
  rw [Binary64.le_iff_real_le IsWhole.minusOne.finite cosineFinite,
    Binary64.le_iff_real_le cosineFinite IsWhole.one.finite, IsWhole.one.real_eq,
    IsWhole.minusOne.real_eq, abs_le]
  push_cast
  rfl

/-- The cosine lies between minus one and one exactly if the computed dot product is not above the
computed lengths by half a unit of one or more, relative to them. A quotient of doubles is never
halfway between one and the next number, so it does not matter to which of them a tie would go. -/
theorem cosine_between_iff (finite : (left.norm * right.norm).isFinite = true)
    (normsPos : 0 < real (left.norm * right.norm)) :
    (-1.0 ≤ left.cosine right ∧ left.cosine right ≤ 1.0) ↔
      (left.dot right).isFinite = true ∧
        |real (left.dot right)| < (1 + roundoff) * real (left.norm * right.norm) := by
  have computed (dotFinite : (left.dot right).isFinite = true) :
      Binary64.Computed (real (left.dot right) / real (left.norm * right.norm))
        (left.cosine right) :=
    Binary64.computed_div dotFinite finite normsPos.ne'
  have quotientAbs : |real (left.dot right) / real (left.norm * right.norm)| =
      |real (left.dot right)| / real (left.norm * right.norm) := by
    rw [abs_div, abs_of_pos normsPos]
  have shareIff (dotFinite : (left.dot right).isFinite = true)
      (cosineFinite : (left.cosine right).isFinite = true) :
      |real (left.cosine right)| ≤ 1 ↔
        |real (left.dot right)| < (1 + roundoff) * real (left.norm * right.norm) := by
    have noTie : |real (left.dot right) / real (left.norm * right.norm)| ≠ 1 + roundoff := by
      rw [quotientAbs, Ne, div_eq_iff normsPos.ne']
      exact (Binary64.onGrid_real dotFinite).abs.ne_one_add_roundoff_mul
        (Binary64.onGrid_real finite) normsPos.ne'
    rw [((computed dotFinite).isRounding cosineFinite).abs_le_one_iff noTie, quotientAbs,
      div_lt_iff₀ normsPos]
  constructor
  · intro between
    have cosineFinite := Binary64.isFinite_of_between IsWhole.minusOne.finite IsWhole.one.finite
      between.1 between.2
    have dotFinite := Binary64.isFinite_of_div cosineFinite finite
    rw [cosine_between_minusOne_one_iff cosineFinite,
      shareIff dotFinite cosineFinite] at between
    exact ⟨dotFinite, between⟩
  · intro parts
    obtain ⟨dotFinite, below⟩ := parts
    have cosineFinite : (left.cosine right).isFinite = true := by
      refine (computed dotFinite).isFinite (le_trans ?_ Binary64.two_pow_le_largest)
      rw [quotientAbs, div_le_iff₀ normsPos]
      refine below.le.trans (mul_le_mul_of_nonneg_right ?_ normsPos.le)
      rw [roundoff]
      norm_num
    rw [cosine_between_minusOne_one_iff cosineFinite, shareIff dotFinite cosineFinite]
    exact below

end Cosine

/-- For two vectors whose lengths multiply to a number other than zero, the angle is a number
exactly if the computed dot product is not above that product by half a unit of one or more. It is a
number if the exact cosine keeps the margin from one and minus one, and no squares underflow. -/
theorem angle_isNaN_eq_false_iff (left right : Vec Float n) (arcCosine : Float → Float)
    (defined : ∀ cosine, (arcCosine cosine).isNaN = true ↔ ¬ (-1.0 ≤ cosine ∧ cosine ≤ 1.0))
    (finite : (left.norm * right.norm).isFinite = true)
    (nonzero : (left.norm * right.norm == 0.0) = false) :
    ((left.angleBy arcCosine right).isNaN = false ↔
      (left.dot right).isFinite = true ∧
        |real (left.dot right)| < (1 + roundoff) * real (left.norm * right.norm)) ∧
    (left.IsNormal → right.IsNormal → left.IsApart right →
      -1.0 ≤ left.cosine right ∧ left.cosine right ≤ 1.0 ∧
        (left.angleBy arcCosine right).isNaN = false) := by
  have normsPos := real_norms_pos finite nonzero
  have isNaNIff : (left.angleBy arcCosine right).isNaN = false ↔
      -1.0 ≤ left.cosine right ∧ left.cosine right ≤ 1.0 := by
    rw [angleBy, Bool.eq_false_iff, Ne, defined, not_not]
  have betweenIff := cosine_between_iff finite normsPos
  refine ⟨isNaNIff.trans betweenIff, fun leftNormal rightNormal apart => ?_⟩
  have filled := order_pos finite normsPos.ne'
  obtain ⟨leftFinite, rightFinite⟩ := Binary64.isFinite_of_mul finite
  have dotFinite := apart.isFinite_dot leftNormal rightNormal filled leftFinite rightFinite
  have dotLe := apart.abs_dot_le leftNormal rightNormal filled finite dotFinite
  have below : |real (left.dot right)| < (1 + roundoff) * real (left.norm * right.norm) := by
    linarith [mul_pos roundoff_pos normsPos]
  have between := betweenIff.mpr ⟨dotFinite, below⟩
  exact ⟨between.1, between.2, isNaNIff.mpr between⟩

/-- Three ones, and three ones with the second one negated: the cosine is near a third. -/
theorem angle_with_one_sign_changed :
    let ones : Vec Float 3 := ⟨#v[1.0, 1.0, 1.0]⟩
    let other : Vec Float 3 := ⟨#v[1.0, -1.0, 1.0]⟩
    let arcCosine : Float → Float := fun cosine =>
      if -1.0 ≤ cosine ∧ cosine ≤ 1.0 then 1.2309594173407747 else 0.0 / 0.0
    (ones.norm * other.norm).isFinite = true ∧ (ones.norm * other.norm == 0.0) = false ∧
      -1.0 ≤ ones.cosine other ∧ ones.cosine other ≤ 1.0 ∧
      (ones.angleBy arcCosine other).isNaN = false := by
  intro ones other arcCosine
  have defined (cosine : Float) :
      (arcCosine cosine).isNaN = true ↔ ¬ (-1.0 ≤ cosine ∧ cosine ≤ 1.0) := by
    by_cases between : -1.0 ≤ cosine ∧ cosine ≤ 1.0
    · have isNumber : (1.2309594173407747 : Float).isNaN = false := by decide +kernel
      rw [show arcCosine cosine = 1.2309594173407747 from if_pos between, isNumber]
      simp [between]
    · have isUndefined : (0.0 / 0.0 : Float).isNaN = true := by decide +kernel
      rw [show arcCosine cosine = 0.0 / 0.0 from if_neg between, isUndefined]
      simp [between]
  have realOne : real 1.0 = 1 := by simpa using IsWhole.one.real_eq
  have realMinusOne : real (-1.0) = -1 := by simpa using IsWhole.minusOne.real_eq
  have onesSelf : ones.exactDot ones = 3 := by
    refine (exactDot_three _ _ _ _ _ _).trans ?_
    rw [realOne]
    norm_num
  have otherSelf : other.exactDot other = 3 := by
    refine (exactDot_three _ _ _ _ _ _).trans ?_
    rw [realOne, realMinusOne]
    norm_num
  have product : ones.exactDot other = 1 := by
    refine (exactDot_three _ _ _ _ _ _).trans ?_
    rw [realOne, realMinusOne]
    norm_num
  have onesNormal : ones.IsNormal := by
    rw [IsNormal, onesSelf]
    push_cast
    linarith [leastNormal_le_one]
  have otherNormal : other.IsNormal := by
    rw [IsNormal, otherSelf]
    push_cast
    linarith [leastNormal_le_one]
  have apart : ones.IsApart other := by
    rw [IsApart, exactNorm, exactNorm, onesSelf, otherSelf, product,
      Real.mul_self_sqrt (by norm_num), margin, roundoff]
    norm_num
  have finite : (ones.norm * other.norm).isFinite = true := by decide +kernel
  have nonzero : (ones.norm * other.norm == 0.0) = false := by decide +kernel
  exact ⟨finite, nonzero, (angle_isNaN_eq_false_iff ones other arcCosine defined finite nonzero).2
    onesNormal otherNormal apart⟩

/-- A vector of three ones and itself: the cosine is above one, and there is no angle. -/
theorem cosine_with_itself_above_one :
    let ones : Vec Float 3 := ⟨#v[1.0, 1.0, 1.0]⟩
    (ones.norm * ones.norm).isFinite = true ∧ (ones.norm * ones.norm == 0.0) = false ∧
      ¬ ones.cosine ones ≤ 1.0 ∧
      ∀ arcCosine : Float → Float,
        (∀ cosine, (arcCosine cosine).isNaN = true ↔ ¬ (-1.0 ≤ cosine ∧ cosine ≤ 1.0)) →
        (ones.angleBy arcCosine ones).isNaN = true := by
  intro ones
  have above : ¬ ones.cosine ones ≤ 1.0 := by decide +kernel
  refine ⟨by decide +kernel, by decide +kernel, above, fun arcCosine defined => ?_⟩
  exact (defined _).mpr fun between => above between.2

end PuzzleKit.Vec
