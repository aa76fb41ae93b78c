import Mathlib.Algebra.Ring.Nat
import PuzzleKit.Proofs.Parser.Laws
import PuzzleKit.Proofs.Parser.Numeral

/-!
# Integers of 64 bits

A number is read from the longest run of digits there is, and only if all of the run fits. The same
numbers come out if the digits are read one after the other in 64 bits, and if the sign is read apart
from a natural number.
-/

set_option autoImplicit false

namespace PuzzleKit.Parser

/-! ## The digits in front of a text -/

/-- The longest run of digits in front of a text. -/
def digitRun (text : List Char) : List Char :=
  text.takeWhile Char.isDigit

def afterDigits (text : List Char) : List Char :=
  text.dropWhile Char.isDigit

/-- Whether a text begins with a minus sign, and what is left without it. -/
def splitSign : List Char → Bool × List Char
  | '-' :: text => (true, text)
  | text => (false, text)

/-- The longest numeral in front of a text. It has no digits if there is no numeral. -/
def signedRun (text : List Char) : SignedNumeral :=
  ⟨(splitSign text).1, digitRun (splitSign text).2⟩

def afterSigned (text : List Char) : List Char :=
  afterDigits (splitSign text).2

theorem splitSign_minus (text : List Char) : splitSign ('-' :: text) = (true, text) :=
  rfl

theorem splitSign_of_head?_ne {text : List Char} (unsigned : text.head? ≠ some '-') :
    splitSign text = (false, text) := by
  unfold splitSign
  split
  · exact absurd rfl unsigned
  · rfl

theorem run_sign (input : Input) :
    (optional (character '-')).run input =
      some (if (splitSign input.chars).1 then some '-' else none,
        Input.ofChars (splitSign input.chars).2) := by
  by_cases minus : input.chars.head? = some '-'
  · obtain ⟨text, front⟩ := List.head?_eq_some_iff.mp minus
    rw [front, splitSign_minus]
    exact run_optional_of_eq_some (run_character_eq_some_iff.mpr ⟨front, rfl⟩)
  · rw [splitSign_of_head?_ne minus, Input.ofChars_chars]
    refine run_optional_of_eq_none (run_satisfy_eq_none fun char member => ?_)
    rw [Bool.eq_false_iff]
    intro same
    exact minus (beq_iff_eq.mp same ▸ member)

theorem run_digits_eq_some_iff {input rest : Input} {written : List Char} :
    digits.run input = some (written, rest) ↔
      written ≠ [] ∧ written = digitRun input.chars ∧ rest.chars = afterDigits input.chars :=
  run_many1_satisfy_eq_some_iff

theorem run_signedNumeral_eq_some_iff {input rest : Input} {signed : SignedNumeral} :
    signedNumeral.run input = some (signed, rest) ↔
      signed.digits ≠ [] ∧ signed = signedRun input.chars ∧
        rest.chars = afterSigned input.chars := by
  obtain ⟨negative, written⟩ := signed
  have signKept : ∀ negative : Bool, (if negative then some '-' else none).isSome = negative := by
    decide
  simp only [signedNumeral, run_map_eq_some_iff, Prod.exists, run_pair_eq_some_iff, run_sign,
    Option.some.injEq, Prod.mk.injEq, SignedNumeral.mk.injEq, signedRun, afterSigned]
  constructor
  · intro parts
    obtain ⟨_, _, ⟨_, ⟨rfl, rfl⟩, read⟩, rfl, rfl⟩ := parts
    obtain ⟨filled, runEq, after⟩ := run_digits_eq_some_iff.mp read
    exact ⟨filled, ⟨signKept _, runEq⟩, after⟩
  · intro parts
    obtain ⟨filled, ⟨rfl, runEq⟩, after⟩ := parts
    exact ⟨_, _, ⟨_, ⟨rfl, rfl⟩, run_digits_eq_some_iff.mpr ⟨filled, runEq, after⟩⟩, signKept _,
      rfl⟩

/-! ## Numbers that fit -/

theorem run_natural_eq_some_iff {input rest : Input} {number : UInt64} :
    natural.run input = some (number, rest) ↔
      digitRun input.chars ≠ [] ∧ number.toNat = Decimal.value (digitRun input.chars) ∧
        rest.chars = afterDigits input.chars := by
  simp only [natural, run_filterMap_eq_some_iff, run_digits_eq_some_iff]
  constructor
  · intro parts
    obtain ⟨written, ⟨filled, rfl, after⟩, accepted⟩ := parts
    split at accepted
    · next fits =>
        cases accepted
        exact ⟨filled, UInt64.toNat_ofNat_of_lt' fits, after⟩
    · cases accepted
  · intro parts
    obtain ⟨filled, valueEq, after⟩ := parts
    refine ⟨_, ⟨filled, rfl, after⟩, ?_⟩
    rw [← valueEq, if_pos number.toNat_lt, UInt64.ofNat_toNat]

theorem SignedNumeral.inRange_of_toInt_eq {signed : SignedNumeral} {number : Int64}
    (valueEq : number.toInt = signed.value) : signed.InRange := by
  rw [InRange, ← valueEq]
  exact ⟨number.le_toInt, number.toInt_lt⟩

theorem run_integer_eq_some_iff {input rest : Input} {number : Int64} :
    integer.run input = some (number, rest) ↔
      (signedRun input.chars).digits ≠ [] ∧ number.toInt = (signedRun input.chars).value ∧
        rest.chars = afterSigned input.chars := by
  simp only [integer, run_filterMap_eq_some_iff, run_signedNumeral_eq_some_iff,
    SignedNumeral.toInt64?_eq_some_iff]
  constructor
  · intro parts
    obtain ⟨_, ⟨filled, rfl, after⟩, _, valueEq⟩ := parts
    exact ⟨filled, valueEq, after⟩
  · intro parts
    obtain ⟨filled, valueEq, after⟩ := parts
    exact ⟨_, ⟨filled, rfl, after⟩, SignedNumeral.inRange_of_toInt_eq valueEq, valueEq⟩

theorem isSome_run_natural_iff (input : Input) :
    (natural.run input).isSome = true ↔
      digitRun input.chars ≠ [] ∧ Decimal.value (digitRun input.chars) < 2 ^ 64 := by
  simp only [Option.isSome_iff_exists, Prod.exists, run_natural_eq_some_iff]
  constructor
  · intro parts
    obtain ⟨number, _, filled, valueEq, _⟩ := parts
    exact ⟨filled, valueEq ▸ number.toNat_lt⟩
  · intro parts
    obtain ⟨filled, fits⟩ := parts
    exact ⟨UInt64.ofNat _, Input.ofChars _, filled, UInt64.toNat_ofNat_of_lt' fits, rfl⟩

theorem isSome_run_integer_iff (input : Input) :
    (integer.run input).isSome = true ↔
      (signedRun input.chars).digits ≠ [] ∧ -2 ^ 63 ≤ (signedRun input.chars).value ∧
        (signedRun input.chars).value ≤ 2 ^ 63 - 1 := by
  simp only [Option.isSome_iff_exists, Prod.exists, run_integer_eq_some_iff]
  constructor
  · intro parts
    obtain ⟨number, _, filled, valueEq, _⟩ := parts
    have lower := number.le_toInt
    have upper := number.toInt_lt
    exact ⟨filled, by omega, by omega⟩
  · intro parts
    obtain ⟨filled, lower, upper⟩ := parts
    exact ⟨Int64.ofInt _, Input.ofChars _, filled,
      Int64.toInt_ofInt_of_le lower (Int.lt_of_le_sub_one upper), rfl⟩

/-! ## Leading zeros -/

theorem value_zeros (count : Nat) (written : List Char) :
    Decimal.value (List.replicate count '0' ++ written) = Decimal.value written := by
  induction count with
  | zero => rfl
  | succ count ih => exact ih

theorem digitRun_zeros (count : Nat) (text : List Char) :
    digitRun (List.replicate count '0' ++ text) = List.replicate count '0' ++ digitRun text :=
  List.takeWhile_append_of_pos (by simp [Char.isDigit])

theorem afterDigits_zeros (count : Nat) (text : List Char) :
    afterDigits (List.replicate count '0' ++ text) = afterDigits text :=
  List.dropWhile_append_of_pos (by simp [Char.isDigit])

theorem digitRun_zeros_ne_nil {text : List Char} (filled : digitRun text ≠ []) (count : Nat) :
    digitRun (List.replicate count '0' ++ text) ≠ [] := by
  rw [digitRun_zeros]
  exact List.append_ne_nil_of_right_ne_nil _ filled

theorem run_natural_zeros {text : List Char} (filled : digitRun text ≠ []) (count : Nat) :
    natural.run (Input.ofChars (List.replicate count '0' ++ text)) =
      natural.run (Input.ofChars text) := by
  apply Option.ext
  intro outcome
  obtain ⟨number, rest⟩ := outcome
  simp only [run_natural_eq_some_iff, Input.chars_ofChars, afterDigits_zeros]
  rw [and_iff_right (digitRun_zeros_ne_nil filled count), and_iff_right filled, digitRun_zeros,
    value_zeros]

theorem splitSign_append {text : List Char} (filled : digitRun text ≠ []) (negative : Bool) :
    splitSign ((if negative then ['-'] else []) ++ text) = (negative, text) := by
  cases negative with
  | true => rfl
  | false =>
      apply splitSign_of_head?_ne
      intro minus
      obtain ⟨others, rfl⟩ := List.head?_eq_some_iff.mp minus
      exact filled rfl

theorem run_integer_zeros {text : List Char} (filled : digitRun text ≠ []) (negative : Bool)
    (count : Nat) :
    integer.run (Input.ofChars
        ((if negative then ['-'] else []) ++ (List.replicate count '0' ++ text))) =
      integer.run (Input.ofChars ((if negative then ['-'] else []) ++ text)) := by
  have both := digitRun_zeros_ne_nil filled count
  apply Option.ext
  intro outcome
  obtain ⟨number, rest⟩ := outcome
  simp only [run_integer_eq_some_iff, Input.chars_ofChars, signedRun, afterSigned,
    splitSign_append filled, splitSign_append both, afterDigits_zeros, SignedNumeral.value]
  rw [and_iff_right both, and_iff_right filled, digitRun_zeros, value_zeros]

/-! ## The sign apart -/

def signedValue (sign : Option Char) (magnitude : UInt64) : Int :=
  if sign.isSome then -magnitude.toNat else magnitude.toNat

/-- The integer of 64 bits that a sign and a natural number make, if there is one. -/
def signed? (sign : Option Char) (magnitude : UInt64) : Option Int64 :=
  if -2 ^ 63 ≤ signedValue sign magnitude ∧ signedValue sign magnitude < 2 ^ 63 then
    some (Int64.ofInt (signedValue sign magnitude))
  else
    none

theorem signed?_eq_some_iff {sign : Option Char} {magnitude : UInt64} {number : Int64} :
    signed? sign magnitude = some number ↔ number.toInt = signedValue sign magnitude := by
  simp only [signed?]
  constructor
  · intro found
    split at found
    · next inRange =>
        cases found
        exact Int64.toInt_ofInt_of_le inRange.1 inRange.2
    · cases found
  · intro valueEq
    rw [← valueEq, if_pos ⟨number.le_toInt, number.toInt_lt⟩, Int64.ofInt_toInt]

/-- The sign in front of a text makes the same number of a magnitude as of its digits. -/
theorem signed?_splitSign_eq_some_iff {text : List Char} {magnitude : UInt64} {number : Int64}
    (same : magnitude.toNat = Decimal.value (signedRun text).digits) :
    signed? (if (splitSign text).1 then some '-' else none) magnitude = some number ↔
      number.toInt = (signedRun text).value := by
  rw [signed?_eq_some_iff, signedValue, same, SignedNumeral.value, signedRun]
  cases (splitSign text).1 <;> rfl

/-- An integer is a natural number with an optional sign. Whatever is too large for a natural number
is too large for an integer of either sign. -/
theorem integer_eq_signed_natural :
    integer = ((optional (character '-')).pair natural).filterMap fun (sign, magnitude) =>
      signed? sign magnitude := by
  ext1 input
  apply Option.ext
  intro outcome
  obtain ⟨number, rest⟩ := outcome
  simp only [run_integer_eq_some_iff, run_filterMap_eq_some_iff, Prod.exists, run_pair_eq_some_iff,
    run_sign, run_natural_eq_some_iff, Option.some.injEq, Prod.mk.injEq]
  constructor
  · intro parts
    obtain ⟨filled, valueEq, after⟩ := parts
    have small : Decimal.value (signedRun input.chars).digits < 2 ^ 64 := by
      have lower := number.le_toInt
      have upper := number.toInt_lt
      rw [SignedNumeral.value] at valueEq
      split at valueEq <;> omega
    have same := UInt64.toNat_ofNat_of_lt' small
    exact ⟨_, _, ⟨_, ⟨rfl, rfl⟩, filled, same, after⟩,
      (signed?_splitSign_eq_some_iff same).mpr valueEq⟩
  · intro parts
    obtain ⟨_, _, ⟨_, ⟨rfl, rfl⟩, filled, same, after⟩, accepted⟩ := parts
    exact ⟨filled, (signed?_splitSign_eq_some_iff same).mp accepted, after⟩

/-! ## Digit by digit -/

theorem digit_eq_map :
    digit = (satisfy Char.isDigit).map fun char => UInt32.ofNat (Decimal.digitValue char) := by
  simp only [digit, satisfy, filterMap_eq_bind, map_eq_bind, bind_assoc]
  congr 1
  funext char
  cases char.isDigit <;> rfl

def toUInt64? (number : Nat) : Option UInt64 :=
  if number < UInt64.size then some (UInt64.ofNat number) else none

/-- One more digit behind a number, as long as there is room for it in 64 bits. -/
def appendDigit? (total : UInt64) (digit : UInt32) : Option UInt64 :=
  toUInt64? (10 * total.toNat + digit.toNat)

theorem toUInt64?_toNat (number : UInt64) : toUInt64? number.toNat = some number := by
  rw [toUInt64?, if_pos number.toNat_lt, UInt64.ofNat_toNat]

theorem toUInt64?_of_lt {number : Nat} (fits : number < UInt64.size) :
    toUInt64? number = some (UInt64.ofNat number) :=
  if_pos fits

theorem toUInt64?_of_le {number : Nat} (large : UInt64.size ≤ number) : toUInt64? number = none :=
  if_neg (Nat.not_lt_of_le large)

theorem toNat_digitValue (char : Char) :
    (UInt32.ofNat (Decimal.digitValue char)).toNat = Decimal.digitValue char :=
  UInt32.toNat_ofNat_of_lt' (Nat.lt_of_le_of_lt (Nat.sub_le _ _) char.val.toNat_lt)

theorem le_foldl_digits (written : List Char) (total : Nat) :
    total ≤ written.foldl (fun total digit => 10 * total + Decimal.digitValue digit) total := by
  induction written generalizing total with
  | nil => exact Nat.le_refl _
  | cons digit written ih =>
      have grown : total ≤ 10 * total + Decimal.digitValue digit := by omega
      exact Nat.le_trans grown (ih _)

/-- Digits only ever make a number larger, so one that overflows on the way would not have fitted in
the end. -/
theorem foldlM_appendDigit? (written : List Char) (total : UInt64) :
    (written.map fun char => UInt32.ofNat (Decimal.digitValue char)).foldlM appendDigit? total =
      toUInt64? (written.foldl (fun total digit => 10 * total + Decimal.digitValue digit)
        total.toNat) := by
  induction written generalizing total with
  | nil => exact (toUInt64?_toNat total).symm
  | cons digit written ih =>
      rw [List.map_cons, List.foldlM_cons, List.foldl_cons, appendDigit?, toNat_digitValue]
      rcases Nat.lt_or_ge (10 * total.toNat + Decimal.digitValue digit) UInt64.size with fits | large
      · have unchanged := UInt64.toNat_ofNat_of_lt' fits
        rw [toUInt64?_of_lt fits, Option.bind_eq_bind, Option.bind_some, ih, unchanged]
      · rw [toUInt64?_of_le large, toUInt64?_of_le (Nat.le_trans large (le_foldl_digits written _))]
        rfl

theorem natural_eq_folded_digits :
    natural = digit.many1.filterMap fun digits => digits.foldlM appendDigit? 0 := by
  rw [digit_eq_map, many1_map, filterMap_map]
  have same : (fun digits : List UInt32 => digits.foldlM appendDigit? 0) ∘
      List.map (fun char => UInt32.ofNat (Decimal.digitValue char)) =
        fun written => toUInt64? (Decimal.value written) :=
    funext fun written => foldlM_appendDigit? written 0
  rw [same]
  rfl

/-! ## All of it -/

/-- The decimal text of a number is read back in front of everything but a digit. -/
theorem run_integer_ofInt (number : Int64) {rest : List Char}
    (stops : ∀ char ∈ rest.head?, char.isDigit = false) :
    integer.run (Input.ofChars (Decimal.ofInt number.toInt ++ rest)) =
      some (number, Input.ofChars rest) := by
  have read := (isNumeral_ofInt number.toInt).run stops
  have valueEq := (SignedNumeral.value_ofInt number.toInt).symm
  exact run_filterMap_eq_some_iff.mpr ⟨_, read, SignedNumeral.toInt64?_eq_some_iff.mpr
    ⟨SignedNumeral.inRange_of_toInt_eq valueEq, valueEq⟩⟩

/-- Numbers are read from all digits in front of a text or not at all, with exact limits: `2 ^ 64` for
a natural number and the integers of 64 bits for a signed one. Zeros in front of the digits make no
difference. Reading the digits singly, or the sign apart, comes to the same, and so does reading what
was written. -/
theorem numerals_read_whole (input : Input) :
    ((natural.run input).isSome = true ↔
      digitRun input.chars ≠ [] ∧ Decimal.value (digitRun input.chars) < 2 ^ 64) ∧
    (∀ number rest, natural.run input = some (number, rest) ↔
      digitRun input.chars ≠ [] ∧ number.toNat = Decimal.value (digitRun input.chars) ∧
        rest.chars = afterDigits input.chars) ∧
    ((integer.run input).isSome = true ↔
      (signedRun input.chars).digits ≠ [] ∧ -2 ^ 63 ≤ (signedRun input.chars).value ∧
        (signedRun input.chars).value ≤ 2 ^ 63 - 1) ∧
    (∀ number rest, integer.run input = some (number, rest) ↔
      (signedRun input.chars).digits ≠ [] ∧ number.toInt = (signedRun input.chars).value ∧
        rest.chars = afterSigned input.chars) ∧
    (∀ text, digitRun text ≠ [] → ∀ (count : Nat) (negative : Bool),
      natural.run (Input.ofChars (List.replicate count '0' ++ text)) =
        natural.run (Input.ofChars text) ∧
      integer.run (Input.ofChars
          ((if negative then ['-'] else []) ++ (List.replicate count '0' ++ text))) =
        integer.run (Input.ofChars ((if negative then ['-'] else []) ++ text))) ∧
    natural.run input =
      (digit.many1.filterMap fun digits => digits.foldlM appendDigit? 0).run input ∧
    integer.run input =
      (((optional (character '-')).pair natural).filterMap fun (sign, magnitude) =>
        signed? sign magnitude).run input ∧
    ∀ (number : Int64) (rest : List Char), (∀ char ∈ rest.head?, char.isDigit = false) →
      integer.run (Input.ofChars (Decimal.ofInt number.toInt ++ rest)) =
        some (number, Input.ofChars rest) := by
  refine ⟨isSome_run_natural_iff input, fun _ _ => run_natural_eq_some_iff,
    isSome_run_integer_iff input, fun _ _ => run_integer_eq_some_iff, ?_, ?_, ?_, ?_⟩
  · intro text filled count negative
    exact ⟨run_natural_zeros filled count, run_integer_zeros filled negative count⟩
  · rw [← natural_eq_folded_digits]
  · rw [← integer_eq_signed_natural]
  · intro number rest stops
    exact run_integer_ofInt number stops

/-- The lowest integer is read up to its end, and the zeros of a negative number do not count. -/
theorem numerals_read_whole_lowest :
    integer.run (Input.ofString "-9223372036854775808.") =
        some (Int64.minValue, Input.ofString ".") ∧
      integer.run (Input.ofString "-0072") = integer.run (Input.ofString "-72") := by
  obtain ⟨_, _, _, _, zeros, _, _, written⟩ := numerals_read_whole (Input.ofString "")
  constructor
  · have textEq : "-9223372036854775808.".toList =
        Decimal.ofInt Int64.minValue.toInt ++ ['.'] := by
      decide +kernel
    rw [Input.ofString, textEq]
    refine written Int64.minValue ['.'] fun char member => ?_
    cases member
    decide
  · exact (zeros ['7', '2'] (by decide) 2 true).2

end PuzzleKit.Parser
