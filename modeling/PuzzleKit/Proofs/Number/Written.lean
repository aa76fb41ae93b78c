import Mathlib.Algebra.Order.Field.Basic
import Mathlib.Algebra.Order.Field.Rat
import Mathlib.Tactic.FieldSimp
import Mathlib.Tactic.Linarith
import Mathlib.Tactic.NormNum
import Mathlib.Tactic.Ring
import PuzzleKit.Number.Decimal

/-!
# The number that a decimal text writes

The exact number that a text writes: its digits count powers of ten before the point and tenths,
hundredths and so on behind it. Written without the point, the same digits count units of the last
place.
-/

set_option autoImplicit false

namespace PuzzleKit.Decimal

/-- The first digit behind a point counts tenths, and the others count as if they were first in
these tenths. -/
def fractionValue : List Char → ℚ
  | [] => 0
  | digit :: digits => (digitValue digit + fractionValue digits) / 10

/-- The number written by a text without a sign. What ends the digits in front is a point. -/
def writtenMagnitude (text : List Char) : ℚ :=
  value (text.takeWhile Char.isDigit) + fractionValue ((text.dropWhile Char.isDigit).drop 1)

def writtenValue : List Char → ℚ
  | '-' :: text => -writtenMagnitude text
  | text => writtenMagnitude text

example : writtenValue "-12.05".toList = -241 / 20 := by decide +kernel

/-! ## Digits -/

theorem value_eq_ofDigitChars (digits : List Char) : value digits = Nat.ofDigitChars 10 digits 0 :=
  Nat.ofDigitChars_eq_foldl.symm

theorem value_append (front back : List Char) :
    value (front ++ back) = value front * 10 ^ back.length + value back := by
  simp only [value_eq_ofDigitChars, Nat.ofDigitChars_append]
  rw [Nat.ofDigitChars_eq_ofDigitChars_zero, Nat.mul_comm]

theorem value_cons (digit : Char) (digits : List Char) :
    value (digit :: digits) = digitValue digit * 10 ^ digits.length + value digits := by
  rw [← List.singleton_append, value_append]
  simp [value]

theorem digitValue_le_nine {char : Char} (isDigit : char.isDigit = true) : digitValue char ≤ 9 := by
  have upper : char.toNat ≤ '9'.toNat := (Char.isDigit_iff_toNat.mp isDigit).2
  exact Nat.sub_le_sub_right upper '0'.toNat

theorem fractionValue_eq (digits : List Char) :
    fractionValue digits = value digits / 10 ^ digits.length := by
  induction digits with
  | nil => simp [fractionValue, value]
  | cons digit digits ih =>
      rw [fractionValue, ih, value_cons, List.length_cons, pow_succ]
      push_cast
      field_simp

theorem fractionValue_lt_one {digits : List Char} (all : ∀ char ∈ digits, char.isDigit = true) :
    fractionValue digits < 1 := by
  induction digits with
  | nil => exact zero_lt_one
  | cons digit digits ih =>
      have others := ih fun char member => all char (List.mem_cons_of_mem _ member)
      have first : (digitValue digit : ℚ) ≤ 9 := by
        exact_mod_cast digitValue_le_nine (all digit List.mem_cons_self)
      rw [fractionValue, div_lt_one (by norm_num)]
      linarith

/-! ## Digits around a point -/

/-- A point with its digits, or neither. -/
def pointText : Option (List Char) → List Char
  | none => []
  | some fraction => '.' :: fraction

variable {digits : List Char}

/-- A fraction and a number of units of its last place are written by the same digits. -/
theorem value_append_div (digits fraction : List Char) :
    (value (digits ++ fraction) : ℚ) / 10 ^ fraction.length = value digits + fractionValue fraction := by
  rw [value_append, fractionValue_eq]
  push_cast
  field_simp

theorem writtenMagnitude_append (all : ∀ char ∈ digits, char.isDigit = true)
    (fraction : Option (List Char)) :
    writtenMagnitude (digits ++ pointText fraction) =
      value digits + fractionValue (fraction.getD []) := by
  rw [writtenMagnitude, List.takeWhile_append_of_pos all, List.dropWhile_append_of_pos all]
  cases fraction <;> simp [pointText]

/-- A text that begins with a digit has no sign. -/
theorem writtenValue_of_digits {text : List Char} (filled : digits ≠ [])
    (all : ∀ char ∈ digits, char.isDigit = true) (front : digits <+: text) :
    writtenValue text = writtenMagnitude text := by
  obtain ⟨others, rfl⟩ := front
  unfold writtenValue
  split
  · next text split =>
      cases digits with
      | nil => exact absurd rfl filled
      | cons digit digits =>
          cases split
          exact absurd (all '-' List.mem_cons_self) (by decide)
  · rfl

end PuzzleKit.Decimal
