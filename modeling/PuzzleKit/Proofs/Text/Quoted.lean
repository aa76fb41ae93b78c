import PuzzleKit.Text.Quoted

/-!
# What quoted text shows

A quoted text is described apart from the function that writes it: which characters have a letter
of their own, which are written by their number and which stand for themselves. Every text has
exactly one quoted form, and no two texts share theirs.
-/

set_option autoImplicit false

namespace PuzzleKit.Text

/-! ## Numbers to base sixteen -/

/-- The digits to base sixteen, each at the place of its value. -/
def hexAlphabet : List Char :=
  ['0', '1', '2', '3', '4', '5', '6', '7', '8', '9', 'a', 'b', 'c', 'd', 'e', 'f']

/-- Digits to base sixteen that write a number. Only zero itself begins with a zero. -/
inductive IsHex : List Char → Nat → Prop where
  | single {digit : Char} {value : Nat} :
      hexAlphabet[value]? = some digit → IsHex [digit] value
  | append {digits : List Char} {digit : Char} {number value : Nat} :
      IsHex digits number → number ≠ 0 → hexAlphabet[value]? = some digit →
      IsHex (digits ++ [digit]) (16 * number + value)

theorem getElem?_hexAlphabet_of_lt : ∀ value < 16,
    hexAlphabet[value]? = some (Nat.digitChar value) := by
  decide

theorem getElem?_hexAlphabet_iff {value : Nat} {digit : Char} :
    hexAlphabet[value]? = some digit ↔ value < 16 ∧ digit = Nat.digitChar value := by
  constructor
  · intro found
    have small : value < 16 := (List.getElem?_eq_some_iff.mp found).1
    rw [getElem?_hexAlphabet_of_lt value small] at found
    exact ⟨small, (Option.some.inj found).symm⟩
  · rintro ⟨small, rfl⟩
    exact getElem?_hexAlphabet_of_lt value small

theorem isHex_hexDigits (number : Nat) : IsHex (hexDigits number) number := by
  induction number using Nat.strongRecOn with
  | ind number ih =>
      rw [hexDigits, Nat.toDigits_eq_if (by decide)]
      split
      · next small => exact .single (getElem?_hexAlphabet_of_lt number small)
      · next large =>
          have last := getElem?_hexAlphabet_of_lt (number % 16) (Nat.mod_lt number (by decide))
          have written := IsHex.append (ih (number / 16) (by omega)) (by omega) last
          rwa [Nat.div_add_mod] at written

theorem isHex_iff {digits : List Char} {number : Nat} :
    IsHex digits number ↔ digits = hexDigits number := by
  constructor
  · intro written
    induction written with
    | single found =>
        obtain ⟨small, rfl⟩ := getElem?_hexAlphabet_iff.mp found
        rw [hexDigits, Nat.toDigits_eq_if (by decide), if_pos small]
    | @append digits digit number value _ positive found ih =>
        obtain ⟨small, rfl⟩ := getElem?_hexAlphabet_iff.mp found
        have quotient : (16 * number + value) / 16 = number := by omega
        have remainder : (16 * number + value) % 16 = value := by omega
        rw [ih, hexDigits, hexDigits, Nat.toDigits_eq_if (n := 16 * number + value) (by decide),
          if_neg (by omega), quotient, remainder]
  · rintro rfl
    exact isHex_hexDigits number

theorem IsHex.mem_hexAlphabet {digits : List Char} {number : Nat} (written : IsHex digits number) :
    ∀ digit ∈ digits, digit ∈ hexAlphabet := by
  induction written with
  | single found => simpa using List.mem_of_getElem? found
  | append _ _ found ih =>
      intro digit member
      rcases List.mem_append.mp member with earlier | last
      · exact ih digit earlier
      · rw [List.mem_singleton.mp last]
        exact List.mem_of_getElem? found

theorem idxOf_hexAlphabet : ∀ value < 16, hexAlphabet.idxOf (Nat.digitChar value) = value := by
  decide

/-- Digits write one number only: the sum of their values, each at its place. -/
theorem IsHex.foldl_eq {digits : List Char} {number : Nat} (written : IsHex digits number) :
    digits.foldl (fun total digit => 16 * total + hexAlphabet.idxOf digit) 0 = number := by
  induction written with
  | single found =>
      obtain ⟨small, rfl⟩ := getElem?_hexAlphabet_iff.mp found
      simp [idxOf_hexAlphabet _ small]
  | append _ _ found ih =>
      obtain ⟨small, rfl⟩ := getElem?_hexAlphabet_iff.mp found
      simp [List.foldl_append, ih, idxOf_hexAlphabet _ small]

/-! ## Characters -/

/-- The characters that are written as a backslash and a letter, and their letters. -/
def namedEscapes : List (Char × Char) :=
  [('\x00', '0'), ('\t', 't'), ('\n', 'n'), ('\r', 'r'), ('"', '"'), ('\\', '\\')]

def IsUnnamed (char : Char) : Prop :=
  char ∉ namedEscapes.map Prod.fst

/-- How one character is written between quotes. -/
inductive IsQuotedChar : Char → List Char → Prop where
  | named {char letter : Char} :
      (char, letter) ∈ namedEscapes → IsQuotedChar char ['\\', letter]
  | numbered {char : Char} {digits : List Char} :
      IsUnnamed char → isGraphemeExtend char = true ∨ isPrintable char = false →
      IsHex digits char.toNat →
      IsQuotedChar char ('\\' :: 'u' :: '\x7b' :: (digits ++ ['\x7d']))
  | plain {char : Char} :
      IsUnnamed char → isGraphemeExtend char = false → isPrintable char = true →
      IsQuotedChar char [char]

theorem isUnnamed_iff {char : Char} :
    IsUnnamed char ↔ char ≠ '\x00' ∧ char ≠ '\t' ∧ char ≠ '\n' ∧ char ≠ '\r' ∧ char ≠ '"' ∧
      char ≠ '\\' := by
  simp [IsUnnamed, namedEscapes]

theorem quotedChar_of_named {char letter : Char} (named : (char, letter) ∈ namedEscapes) :
    quotedChar char = ['\\', letter] := by
  simp only [namedEscapes, List.mem_cons, Prod.mk.injEq, List.not_mem_nil, or_false] at named
  rcases named with ⟨rfl, rfl⟩ | ⟨rfl, rfl⟩ | ⟨rfl, rfl⟩ | ⟨rfl, rfl⟩ | ⟨rfl, rfl⟩ | ⟨rfl, rfl⟩
  all_goals rfl

theorem quotedChar_of_unnamed {char : Char} (unnamed : IsUnnamed char) :
    quotedChar char =
      if isGraphemeExtend char || !isPrintable char then numericEscape char else [char] := by
  obtain ⟨zero, tab, newline, carriage, quote, backslash⟩ := isUnnamed_iff.mp unnamed
  simp only [quotedChar, zero, tab, newline, carriage, quote, backslash, ↓reduceIte]

/-- Every character is written in exactly one way. -/
theorem isQuotedChar_iff {char : Char} {written : List Char} :
    IsQuotedChar char written ↔ written = quotedChar char := by
  constructor
  · intro quoted
    cases quoted with
    | named named => exact (quotedChar_of_named named).symm
    | numbered unnamed hidden digits =>
        have numeric : (isGraphemeExtend char || !isPrintable char) = true := by simpa using hidden
        rw [quotedChar_of_unnamed unnamed, if_pos numeric, numericEscape, isHex_iff.mp digits]
    | plain unnamed shown printable =>
        rw [quotedChar_of_unnamed unnamed, shown, printable]
        rfl
  · rintro rfl
    by_cases unnamed : IsUnnamed char
    · rw [quotedChar_of_unnamed unnamed]
      split
      · next numeric =>
          have hidden : isGraphemeExtend char = true ∨ isPrintable char = false := by
            simpa using numeric
          exact .numbered unnamed hidden (isHex_hexDigits char.toNat)
      · next plain =>
          obtain ⟨shown, printable⟩ : isGraphemeExtend char = false ∧ isPrintable char = true := by
            simpa using plain
          exact .plain unnamed shown printable
    · obtain ⟨⟨_, letter⟩, named, rfl⟩ := List.mem_map.mp (Decidable.not_not.mp unnamed)
      rw [quotedChar_of_named named]
      exact .named named

/-! ## Texts -/

inductive IsQuotedChars : List Char → List Char → Prop where
  | nil : IsQuotedChars [] []
  | cons {char : Char} {text piece written : List Char} :
      IsQuotedChar char piece → IsQuotedChars text written →
      IsQuotedChars (char :: text) (piece ++ written)

/-- A text with its characters written one after the other, between double quotes. -/
inductive IsQuoted : List Char → List Char → Prop where
  | between {text written : List Char} :
      IsQuotedChars text written → IsQuoted text ('"' :: (written ++ ['"']))

theorem isQuotedChars_iff {text written : List Char} :
    IsQuotedChars text written ↔ written = text.flatMap quotedChar := by
  constructor
  · intro quoted
    induction quoted with
    | nil => rfl
    | cons first _ ih => rw [List.flatMap_cons, isQuotedChar_iff.mp first, ih]
  · rintro rfl
    induction text with
    | nil => exact .nil
    | cons char text ih => exact .cons (isQuotedChar_iff.mpr rfl) ih

/-- Every text has exactly one quoted form. -/
theorem isQuoted_iff {text written : List Char} :
    IsQuoted text written ↔ written = quoted text := by
  constructor
  · rintro ⟨inner⟩
    rw [quoted, isQuotedChars_iff.mp inner]
  · rintro rfl
    exact .between (isQuotedChars_iff.mpr rfl)

/-! ## Telling texts apart -/

theorem IsQuotedChar.ne_nil {char : Char} {written : List Char}
    (quoted : IsQuotedChar char written) : written ≠ [] := by
  cases quoted <;> exact List.cons_ne_nil _ _

theorem IsUnnamed.ne_backslash {char : Char} (unnamed : IsUnnamed char) : char ≠ '\\' :=
  (isUnnamed_iff.mp unnamed).2.2.2.2.2

theorem letter_ne_of_named {char letter : Char} (named : (char, letter) ∈ namedEscapes) :
    letter ≠ 'u' := by
  have letters : ∀ escape ∈ namedEscapes, escape.2 ≠ 'u' := by decide
  exact letters _ named

theorem eq_of_named {left right letter : Char} (leftNamed : (left, letter) ∈ namedEscapes)
    (rightNamed : (right, letter) ∈ namedEscapes) : left = right := by
  have distinct : ∀ first ∈ namedEscapes, ∀ second ∈ namedEscapes,
      first.2 = second.2 → first.1 = second.1 := by
    decide
  exact distinct _ leftNamed _ rightNamed rfl

theorem eq_of_isHex {digits : List Char} {left right : Char} (leftHex : IsHex digits left.toNat)
    (rightHex : IsHex digits right.toNat) : left = right :=
  Char.toNat_inj.mp (leftHex.foldl_eq.symm.trans rightHex.foldl_eq)

theorem IsHex.takeWhile_eq {digits : List Char} {number : Nat} (written : IsHex digits number)
    (rest : List Char) : (digits ++ '\x7d' :: rest).takeWhile (· ≠ '\x7d') = digits := by
  have outside : '\x7d' ∉ hexAlphabet := by decide
  have within : ∀ digit ∈ digits, decide (digit ≠ '\x7d') = true := by
    intro digit member
    refine decide_eq_true fun equal => outside ?_
    exact equal ▸ written.mem_hexAlphabet digit member
  rw [List.takeWhile_append_of_pos within, List.takeWhile_cons_of_neg (by decide),
    List.append_nil]

/-- Two numbers with closing braces behind them are told apart by their first brace. -/
theorem IsHex.digits_unique {leftDigits rightDigits leftRest rightRest : List Char}
    {left right : Nat} (leftHex : IsHex leftDigits left) (rightHex : IsHex rightDigits right)
    (same : leftDigits ++ '\x7d' :: leftRest = rightDigits ++ '\x7d' :: rightRest) :
    leftDigits = rightDigits ∧ leftRest = rightRest := by
  have digits : leftDigits = rightDigits := by
    rw [← leftHex.takeWhile_eq leftRest, same, rightHex.takeWhile_eq]
  subst digits
  exact ⟨rfl, (List.cons.inj (List.append_cancel_left same)).2⟩

/-- What stands in front of a text written between quotes is one character, and no other. -/
theorem IsQuotedChar.front_unique {left right : Char}
    {leftWritten rightWritten leftRest rightRest : List Char}
    (leftQuoted : IsQuotedChar left leftWritten) (rightQuoted : IsQuotedChar right rightWritten)
    (same : leftWritten ++ leftRest = rightWritten ++ rightRest) :
    left = right ∧ leftRest = rightRest := by
  cases leftQuoted with
  | named leftNamed =>
      cases rightQuoted with
      | named rightNamed =>
          cases same
          exact ⟨eq_of_named leftNamed rightNamed, rfl⟩
      | numbered =>
          cases same
          exact absurd rfl (letter_ne_of_named leftNamed)
      | plain unnamed =>
          cases same
          exact absurd rfl unnamed.ne_backslash
  | @numbered leftDigits _ _ leftHex =>
      cases rightQuoted with
      | named rightNamed =>
          cases same
          exact absurd rfl (letter_ne_of_named rightNamed)
      | @numbered rightDigits _ _ rightHex =>
          have behind : leftDigits ++ '\x7d' :: leftRest = rightDigits ++ '\x7d' :: rightRest := by
            simpa using same
          obtain ⟨rfl, rest⟩ := leftHex.digits_unique rightHex behind
          exact ⟨eq_of_isHex leftHex rightHex, rest⟩
      | plain unnamed =>
          cases same
          exact absurd rfl unnamed.ne_backslash
  | plain leftUnnamed =>
      cases rightQuoted with
      | named =>
          cases same
          exact absurd rfl leftUnnamed.ne_backslash
      | numbered =>
          cases same
          exact absurd rfl leftUnnamed.ne_backslash
      | plain =>
          cases same
          exact ⟨rfl, rfl⟩

theorem IsQuotedChars.text_unique {left right leftWritten rightWritten : List Char}
    (leftQuoted : IsQuotedChars left leftWritten) (rightQuoted : IsQuotedChars right rightWritten)
    (same : leftWritten = rightWritten) : left = right := by
  induction leftQuoted generalizing right rightWritten with
  | nil =>
      cases rightQuoted with
      | nil => rfl
      | cons rightFirst _ => exact absurd (List.append_eq_nil_iff.mp same.symm).1 rightFirst.ne_nil
  | cons leftFirst _ ih =>
      cases rightQuoted with
      | nil => exact absurd (List.append_eq_nil_iff.mp same).1 leftFirst.ne_nil
      | cons rightFirst rightOthers =>
          obtain ⟨rfl, rest⟩ := leftFirst.front_unique rightFirst same
          rw [ih rightOthers rest]

/-- No two texts have the same quoted form. -/
theorem quoted_injective {left right : List Char} (same : quoted left = quoted right) :
    left = right := by
  have inner : left.flatMap quotedChar = right.flatMap quotedChar :=
    List.append_cancel_right (List.cons.inj same).2
  exact (isQuotedChars_iff.mpr rfl).text_unique (isQuotedChars_iff.mpr rfl) inner

end PuzzleKit.Text
