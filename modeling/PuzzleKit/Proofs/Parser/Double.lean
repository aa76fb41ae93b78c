import PuzzleKit.Proofs.Number.Nearest
import PuzzleKit.Proofs.Number.Written
import PuzzleKit.Proofs.Parser.Numeral

/-!
# Doubles and their text

A double is read wherever an integer is. It reads what the integer reads, and a point with the
digits behind it if there is a digit behind it. Its value is the double nearest to what its whole
text writes, and its sign is that of the text. An integer of 64 bits with a fraction stays below
`2 ^ 63 + 1`, and from there it is rounded down to `2 ^ 63`.
-/

set_option autoImplicit false

namespace PuzzleKit.Parser

open Binary64 (Rounds)
open Decimal (pointText writtenValue)

/-! ## The fraction -/

/-- A point and all digits behind it, if a text begins with a point and a digit. -/
def fractionText : List Char → List Char
  | '.' :: digit :: chars =>
      if digit.isDigit then '.' :: digit :: chars.takeWhile Char.isDigit else []
  | _ => []

example : fractionText ".50.x".toList = ".50".toList := by decide

example : fractionText ".x".toList = [] := by decide

theorem fractionText_of_isDigit {digit : Char} (isDigit : digit.isDigit = true)
    (chars : List Char) :
    fractionText ('.' :: digit :: chars) = '.' :: (digit :: chars).takeWhile Char.isDigit := by
  rw [fractionText, if_pos isDigit, List.takeWhile_cons_of_pos isDigit]

/-- Where no point with digits is read, there is none. -/
theorem fractionText_of_run_eq_none {input : Input}
    (refused : ((character '.').seqRight digits).run input = none) :
    fractionText input.chars = [] := by
  unfold fractionText
  split
  · next digit chars front =>
      split
      · next isDigit =>
          have point : (character '.').run input = some ('.', Input.ofChars (digit :: chars)) :=
            run_character_eq_some_iff.mpr ⟨front, rfl⟩
          have filled : (digit :: chars).takeWhile Char.isDigit ≠ [] := by simp [isDigit]
          have read : digits.run (Input.ofChars (digit :: chars)) =
              some (_, Input.ofChars ((digit :: chars).dropWhile Char.isDigit)) :=
            run_many1_satisfy_eq_some_iff.mpr ⟨filled, rfl, rfl⟩
          cases refused.symm.trans (run_seqRight_eq_some_iff.mpr ⟨_, _, point, read⟩)
      · rfl
  · rfl

theorem fractionText_of_run {input rest : Input} {fraction : List Char}
    (found : ((character '.').seqRight digits).run input = some (fraction, rest)) :
    fractionText input.chars = '.' :: fraction ∧
      (∀ char ∈ fraction, char.isDigit = true) ∧
      input.chars = '.' :: (fraction ++ rest.chars) := by
  obtain ⟨_, middle, point, read⟩ := run_seqRight_eq_some_iff.mp found
  obtain ⟨filled, isDigit, front⟩ := front_of_run_many1_satisfy read
  have taken := (run_many1_satisfy_eq_some_iff.mp read).2.1
  have inputEq := (run_character_eq_some_iff.mp point).1
  rw [front] at taken inputEq
  refine ⟨?_, isDigit, inputEq⟩
  obtain ⟨digit, others, rfl⟩ := List.exists_cons_of_ne_nil filled
  rw [List.cons_append] at taken inputEq
  rw [inputEq, fractionText_of_isDigit (isDigit digit List.mem_cons_self), ← taken]

theorem run_fraction (input : Input) :
    ∃ fraction rest, (optional ((character '.').seqRight digits)).run input = some (fraction, rest) ∧
      input.chars = fractionText input.chars ++ rest.chars ∧
      fractionText input.chars = pointText fraction ∧
      ∀ char ∈ fraction.getD [], char.isDigit = true := by
  cases ran : ((character '.').seqRight digits).run input with
  | none =>
      have textEq := fractionText_of_run_eq_none ran
      exact ⟨none, input, run_optional_of_eq_none ran, by rw [textEq, List.nil_append], textEq,
        fun _ member => nomatch member⟩
  | some outcome =>
      obtain ⟨fraction, rest⟩ := outcome
      obtain ⟨textEq, isDigit, front⟩ := fractionText_of_run ran
      refine ⟨some fraction, rest, run_optional_of_eq_some ran, ?_, textEq, isDigit⟩
      rw [textEq, front, List.cons_append]

/-! ## The value -/

section Value

variable {text : List Char} {whole : SignedNumeral}

theorem IsNumeral.negative_iff (numeral : IsNumeral text whole) (others : List Char) :
    whole.negative = true ↔ (text ++ others).head? = some '-' := by
  obtain ⟨negative, written⟩ := whole
  obtain ⟨rfl, filled, isDigit⟩ := numeral
  obtain ⟨digit, written, rfl⟩ := List.exists_cons_of_ne_nil filled
  have noMinus : digit ≠ '-' := by
    rintro rfl
    cases isDigit '-' List.mem_cons_self
  cases negative <;> simp [noMinus]

/-- The number that a numeral and a fraction write, without its sign. -/
def writtenQuotient (whole : SignedNumeral) (fraction : List Char) : ℚ :=
  (Decimal.value (whole.digits ++ fraction) : Nat) / (Nat.pow 10 fraction.length : Nat)

theorem writtenQuotient_eq (whole : SignedNumeral) (fraction : List Char) :
    writtenQuotient whole fraction = Decimal.value whole.digits + Decimal.fractionValue fraction := by
  rw [← Decimal.value_append_div, writtenQuotient, Nat.pow_eq]
  push_cast
  rfl

/-- The digits are those of the whole text, whatever its sign and wherever its point is. -/
theorem IsNumeral.writtenValue_append (numeral : IsNumeral text whole)
    (fraction : Option (List Char)) :
    writtenValue (text ++ pointText fraction) =
      if whole.negative then -writtenQuotient whole (fraction.getD [])
      else writtenQuotient whole (fraction.getD []) := by
  have written := Decimal.writtenMagnitude_append numeral.isDigit fraction
  rw [numeral.text_eq, writtenQuotient_eq, ← written]
  cases whole.negative with
  | true => rfl
  | false =>
      exact Decimal.writtenValue_of_digits numeral.digits_ne_nil numeral.isDigit
        (List.prefix_append _ _)

theorem SignedNumeral.InRange.value_digits_le (inRange : whole.InRange) :
    Decimal.value whole.digits ≤ 2 ^ 63 := by
  have natAbsEq : whole.value.natAbs = Decimal.value whole.digits := by
    unfold value
    split <;> simp
  obtain ⟨lower, upper⟩ := inRange
  omega

theorem SignedNumeral.InRange.writtenQuotient_lt (inRange : whole.InRange) {fraction : List Char}
    (all : ∀ char ∈ fraction, char.isDigit = true) :
    writtenQuotient whole fraction < 2 ^ 63 + 1 := by
  have wholeLe : (Decimal.value whole.digits : ℚ) ≤ 2 ^ 63 := by
    exact_mod_cast inRange.value_digits_le
  have fractionLt := Decimal.fractionValue_lt_one all
  rw [writtenQuotient_eq]
  linarith

/-- A finite double that is nearest to what a text writes, and that has the sign of the text. -/
structure StandsFor (number : Float) (text : List Char) (dyadic : Binary64.Dyadic) : Prop where
  decoded : Binary64.toDyadic? number = some dyadic
  rounds : Rounds (writtenValue text) dyadic
  negative_iff : dyadic.negative = true ↔ text.head? = some '-'

theorem IsNumeral.exists_standsFor (numeral : IsNumeral text whole) (inRange : whole.InRange)
    {fraction : Option (List Char)} (all : ∀ char ∈ fraction.getD [], char.isDigit = true) :
    ∃ dyadic, StandsFor (nearestDouble whole (fraction.getD [])) (text ++ pointText fraction)
      dyadic ∧ |dyadic.value| ≤ 2 ^ 63 := by
  have below := inRange.writtenQuotient_lt all
  have small : writtenQuotient whole (fraction.getD []) < 2 ^ 1023 := by
    refine lt_trans below (lt_of_lt_of_le ?_ (pow_le_pow_right₀ one_le_two (by decide : 64 ≤ 1023)))
    norm_num
  have nonneg : 0 ≤ writtenQuotient whole (fraction.getD []) :=
    div_nonneg (Nat.cast_nonneg _) (Nat.cast_nonneg _)
  have positive : 0 < Nat.pow 10 (fraction.getD []).length := Nat.pow_pos (by decide)
  obtain ⟨dyadic, decoded, sign, rounds⟩ :=
    Binary64.nearest_rounds whole.negative positive small
  have negativeIff := numeral.negative_iff (pointText fraction)
  have written := numeral.writtenValue_append fraction
  rw [← sign] at negativeIff written rounds
  refine ⟨dyadic, ⟨decoded, written ▸ rounds, negativeIff⟩, ?_⟩
  exact rounds.abs_value_le decoded nonneg (by decide) (by decide) below

end Value

/-! ## Reading -/

/-- A double is read exactly where an integer is. It goes on from the end of the integer over a
fraction, if one is there, and stands for all of the text that it has read; it is finite, and no
larger than the integers of 64 bits. -/
theorem double_reads_text (input : Input) :
    match integer.run input with
    | none => double.run input = none
    | some (_, rest) =>
        ∃ number after whole dyadic, double.run input = some (number, after) ∧
          input.chars = whole ++ rest.chars ∧
          rest.chars = fractionText rest.chars ++ after.chars ∧
          StandsFor number (whole ++ fractionText rest.chars) dyadic ∧ |dyadic.value| ≤ 2 ^ 63 := by
  cases ran : integer.run input with
  | none =>
      cases found : double.run input with
      | none => rfl
      | some outcome =>
          obtain ⟨_, _, _, numeral, _, inRange, _⟩ := run_double_eq_some_iff.mp found
          have read : integer.run input = some (_, _) :=
            run_filterMap_eq_some_iff.mpr ⟨_, numeral, inRange.toInt64?⟩
          cases ran.symm.trans read
  | some outcome =>
      obtain ⟨_, rest⟩ := outcome
      obtain ⟨signed, numeral, fits⟩ := run_filterMap_eq_some_iff.mp ran
      have inRange := (SignedNumeral.toInt64?_eq_some_iff.mp fits).1
      obtain ⟨whole, isNumeral, front⟩ := isNumeral_of_run numeral
      obtain ⟨fraction, after, fractionRun, split, textEq, isDigit⟩ := run_fraction rest
      obtain ⟨dyadic, standsFor, bounded⟩ := isNumeral.exists_standsFor inRange isDigit
      refine ⟨_, after, whole, dyadic, ?_, front, split, textEq ▸ standsFor, bounded⟩
      exact run_double_eq_some_iff.mpr ⟨_, _, _, numeral, fractionRun, inRange, rfl⟩

end PuzzleKit.Parser
