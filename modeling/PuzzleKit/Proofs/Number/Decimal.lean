import PuzzleKit.Number.Decimal

/-!
# The digits of a number

The decimal digits of a number write that number, and they do not begin with a needless zero.
-/

set_option autoImplicit false

namespace PuzzleKit.Decimal

theorem value_digits (number : Nat) : value (digits number) = number := by
  have written : Nat.ofDigitChars 10 (Nat.toDigits 10 number) 0 = number :=
    Nat.ofDigitChars_ten_toDigits
  rw [Nat.ofDigitChars_eq_foldl] at written
  exact written

theorem digits_ne_nil (number : Nat) : digits number ≠ [] :=
  Nat.toDigits_ne_nil

theorem isDigit_of_mem_digits {number : Nat} {char : Char} (member : char ∈ digits number) :
    char.isDigit = true :=
  Nat.isDigit_of_mem_toDigits (by decide) (by decide) member

private theorem digitChar_ne_zero : ∀ digit < 10, digit ≠ 0 → Nat.digitChar digit ≠ '0' := by
  decide

theorem head?_digits_ne_zero {number : Nat} (positive : number ≠ 0) :
    (digits number).head? ≠ some '0' := by
  induction number using Nat.strongRecOn with
  | ind number ih =>
      rw [digits, Nat.toDigits_eq_if (by decide)]
      split
      · next small => simpa using digitChar_ne_zero number small positive
      · next large =>
          have front := ih (number / 10) (by omega) (by omega)
          obtain ⟨first, others, split⟩ :=
            List.exists_cons_of_ne_nil (digits_ne_nil (number / 10))
          rw [split] at front
          rw [digits] at split
          rw [split]
          exact front

/-- Only zero itself begins with a zero. -/
theorem digits_eq_zero_or_head?_ne (number : Nat) :
    digits number = ['0'] ∨ (digits number).head? ≠ some '0' := by
  by_cases zero : number = 0
  · exact .inl (zero ▸ Nat.toDigits_zero 10)
  · exact .inr (head?_digits_ne_zero zero)

end PuzzleKit.Decimal
