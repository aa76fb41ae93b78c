import Mathlib.Algebra.Ring.Int.Defs
import PuzzleKit.Parser.Numeral
import PuzzleKit.Proofs.Number.Decimal
import PuzzleKit.Proofs.Parser.Repeats

/-!
# What numerals look like

The written form of a signed number: an optional minus sign and at least one digit. A numeral is
read as it stands if no further digit follows it, and whatever is read as a numeral has this form.
-/

set_option autoImplicit false

namespace PuzzleKit.Parser

structure IsNumeral (text : List Char) (signed : SignedNumeral) : Prop where
  text_eq : text = (if signed.negative then ['-'] else []) ++ signed.digits
  digits_ne_nil : signed.digits ≠ []
  isDigit : ∀ char ∈ signed.digits, char.isDigit = true

def SignedNumeral.InRange (signed : SignedNumeral) : Prop :=
  -2 ^ 63 ≤ signed.value ∧ signed.value < 2 ^ 63

theorem SignedNumeral.toInt64?_eq_some_iff {signed : SignedNumeral} {number : Int64} :
    signed.toInt64? = some number ↔ signed.InRange ∧ number.toInt = signed.value := by
  have rangeIff : (Int64.minValue.toInt ≤ signed.value ∧
      signed.value ≤ Int64.maxValue.toInt) ↔ signed.InRange := by
    rw [Int64.toInt_minValue, Int64.toInt_maxValue, SignedNumeral.InRange]
    omega
  simp only [toInt64?]
  constructor
  · intro found
    split at found
    · next fits =>
        cases found
        have inRange := rangeIff.mp fits
        exact ⟨inRange, Int64.toInt_ofInt_of_le inRange.1 inRange.2⟩
    · cases found
  · intro parts
    obtain ⟨fits, same⟩ := parts
    rw [if_pos (rangeIff.mpr fits), ← same, Int64.ofInt_toInt]

theorem SignedNumeral.InRange.toInt64? {signed : SignedNumeral} (inRange : signed.InRange) :
    signed.toInt64? = some (Int64.ofInt signed.value) :=
  toInt64?_eq_some_iff.mpr ⟨inRange, Int64.toInt_ofInt_of_le inRange.1 inRange.2⟩

theorem IsNumeral.char {text : List Char} {signed : SignedNumeral}
    (numeral : IsNumeral text signed) {char : Char} (member : char ∈ text) :
    char = '-' ∨ char.isDigit = true := by
  rw [numeral.text_eq, List.mem_append] at member
  rcases member with sign | digit
  · split at sign
    · exact .inl (List.mem_singleton.mp sign)
    · cases sign
  · exact .inr (numeral.isDigit char digit)

theorem IsNumeral.ne_nil {text : List Char} {signed : SignedNumeral}
    (numeral : IsNumeral text signed) : text ≠ [] := by
  rw [numeral.text_eq]
  exact List.append_ne_nil_of_right_ne_nil _ numeral.digits_ne_nil

/-- The decimal text of an integer is a numeral. -/
theorem isNumeral_ofInt (number : Int) :
    IsNumeral (Decimal.ofInt number) ⟨decide (number < 0), Decimal.digits number.natAbs⟩ where
  text_eq := by
    simp only [Decimal.ofInt, decide_eq_true_eq]
    split <;> rfl
  digits_ne_nil := Decimal.digits_ne_nil _
  isDigit _ := Decimal.isDigit_of_mem_digits

theorem SignedNumeral.value_ofInt (number : Int) :
    SignedNumeral.value ⟨decide (number < 0), Decimal.digits number.natAbs⟩ = number := by
  simp only [SignedNumeral.value, Decimal.value_digits, decide_eq_true_eq]
  split <;> omega

/-- A numeral that no digit follows is read as it stands. -/
theorem IsNumeral.run {text rest : List Char} {signed : SignedNumeral}
    (numeral : IsNumeral text signed) (stops : ∀ char ∈ rest.head?, char.isDigit = false) :
    signedNumeral.run (Input.ofChars (text ++ rest)) = some (signed, Input.ofChars rest) := by
  obtain ⟨negative, written⟩ := signed
  obtain ⟨rfl, filled, isDigit⟩ := numeral
  have read := run_many1_satisfy_append filled isDigit stops
  simp only [signedNumeral, run_map_eq_some_iff, Prod.exists, run_pair_eq_some_iff]
  cases negative with
  | true =>
      have signed := run_optional_of_eq_some (run_character '-' (written ++ rest))
      exact ⟨some '-', written, ⟨_, signed, read⟩, rfl⟩
  | false =>
      refine ⟨none, written, ⟨_, run_optional_eq_some_iff.mpr (.inr ⟨?_, rfl, rfl⟩), read⟩, rfl⟩
      apply run_satisfy_eq_none
      intro char member
      cases written with
      | nil => exact absurd rfl filled
      | cons first others =>
          have same : first = char := Option.some.inj member
          have firstIsDigit := isDigit first List.mem_cons_self
          simpa using fun equal : char = '-' => by simp [same, equal] at firstIsDigit

theorem isNumeral_of_run {input rest : Input} {signed : SignedNumeral}
    (found : signedNumeral.run input = some (signed, rest)) :
    ∃ text, IsNumeral text signed ∧ input.chars = text ++ rest.chars := by
  simp only [signedNumeral, run_map_eq_some_iff, Prod.exists, run_pair_eq_some_iff] at found
  obtain ⟨sign, written, ⟨middle, signRun, digitsRun⟩, rfl⟩ := found
  obtain ⟨filled, isDigit, front⟩ := front_of_run_many1_satisfy digitsRun
  rcases run_optional_eq_some_iff.mp signRun with ⟨char, minus, rfl⟩ | ⟨_, rfl, rfl⟩
  · refine ⟨'-' :: written, ⟨rfl, filled, isDigit⟩, ?_⟩
    rw [(run_character_eq_some_iff.mp minus).1, front, List.cons_append]
  · exact ⟨written, ⟨rfl, filled, isDigit⟩, front⟩

/-- A double is signed digits of 64 bits and, if they can be read, a point and more digits. -/
theorem run_double_eq_some_iff {input rest : Input} {number : Float} :
    double.run input = some (number, rest) ↔
      ∃ whole fraction middle, signedNumeral.run input = some (whole, middle) ∧
        (optional ((character '.').seqRight digits)).run middle = some (fraction, rest) ∧
        whole.InRange ∧ number = nearestDouble whole (fraction.getD []) := by
  simp only [double, run_filterMap_eq_some_iff, Prod.exists, run_pair_eq_some_iff]
  constructor
  · intro parts
    obtain ⟨whole, fraction, ⟨middle, first, second⟩, accepted⟩ := parts
    split at accepted
    · cases accepted
    · next fits =>
        cases accepted
        have inRange := (SignedNumeral.toInt64?_eq_some_iff.mp fits).1
        exact ⟨whole, fraction, middle, first, second, inRange, rfl⟩
  · intro parts
    obtain ⟨whole, fraction, middle, first, second, inRange, rfl⟩ := parts
    exact ⟨whole, fraction, ⟨middle, first, second⟩, by rw [inRange.toInt64?]⟩

end PuzzleKit.Parser
