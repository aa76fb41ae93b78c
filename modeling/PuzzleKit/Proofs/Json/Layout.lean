import PuzzleKit.Proofs.Json.Writer

/-!
# White space between the values

Blanks and newlines outside of strings are all that tells the pretty text of a value from the
compact one.
-/

set_option autoImplicit false

namespace PuzzleKit.Json

/-- The characters that are written between the values of a pretty text. -/
def isBreak (char : Char) : Bool :=
  char == ' ' || char == '\n'

theorem isSpace_of_isBreak {char : Char} (isBreakChar : isBreak char = true) :
    isSpace char = true := by
  simp only [isBreak, Bool.or_eq_true, beq_iff_eq] at isBreakChar
  rcases isBreakChar with rfl | rfl <;> rfl

mutual

/-- A text without the blanks and newlines outside of its strings. -/
def withoutBreaks : List Char → List Char
  | [] => []
  | char :: rest =>
      if char = '"' then char :: insideString rest
      else if isBreak char then withoutBreaks rest
      else char :: withoutBreaks rest

/-- All of a string is kept. A quote after a backslash is not its end. -/
def insideString : List Char → List Char
  | [] => []
  | '\\' :: char :: rest => '\\' :: char :: insideString rest
  | char :: rest => char :: if char = '"' then withoutBreaks rest else insideString rest

end

theorem withoutBreaks_append_of_isBreak {text rest : List Char}
    (breaks : ∀ char ∈ text, isBreak char = true) :
    withoutBreaks (text ++ rest) = withoutBreaks rest := by
  induction text with
  | nil => rfl
  | cons char text ih =>
      have isBreakChar := breaks char List.mem_cons_self
      have noQuote : char ≠ '"' := by
        rintro rfl
        cases isBreakChar
      rw [List.cons_append, withoutBreaks, if_neg noQuote, if_pos isBreakChar,
        ih fun other member => breaks other (List.mem_cons_of_mem _ member)]

theorem withoutBreaks_cons {char : Char} (noQuote : char ≠ '"') (noBreak : isBreak char = false)
    (rest : List Char) : withoutBreaks (char :: rest) = char :: withoutBreaks rest := by
  rw [withoutBreaks, if_neg noQuote, noBreak, if_neg Bool.false_ne_true]

theorem withoutBreaks_append {text : List Char}
    (outside : ∀ char ∈ text, char ≠ '"' ∧ isBreak char = false) (rest : List Char) :
    withoutBreaks (text ++ rest) = text ++ withoutBreaks rest := by
  induction text with
  | nil => rfl
  | cons char text ih =>
      obtain ⟨noQuote, noBreak⟩ := outside char List.mem_cons_self
      rw [List.cons_append, withoutBreaks_cons noQuote noBreak,
        ih fun other member => outside other (List.mem_cons_of_mem _ member), List.cons_append]

/-! ## Strings -/

theorem insideString_cons {char : Char} (noQuote : char ≠ '"') (noBackslash : char ≠ '\\')
    (rest : List Char) : insideString (char :: rest) = char :: insideString rest := by
  rw [insideString, if_neg noQuote]
  rintro _ _ rfl
  exact absurd rfl noBackslash

theorem insideString_append {text : List Char}
    (inside : ∀ char ∈ text, char ≠ '"' ∧ char ≠ '\\') (rest : List Char) :
    insideString (text ++ rest) = text ++ insideString rest := by
  induction text with
  | nil => rfl
  | cons char text ih =>
      obtain ⟨noQuote, noBackslash⟩ := inside char List.mem_cons_self
      rw [List.cons_append, insideString_cons noQuote noBackslash,
        ih fun other member => inside other (List.mem_cons_of_mem _ member), List.cons_append]

theorem isSome_hexDigitValue?_of_mem {digits : List Char} {unit : Nat}
    (written : codeUnit? digits = some unit) :
    ∀ char ∈ digits, (hexDigitValue? char).isSome = true := by
  intro char member
  unfold codeUnit? at written
  split at written
  · split at written
    · next first second third fourth =>
        simp only [List.mem_cons, List.not_mem_nil, or_false] at member
        rcases member with rfl | rfl | rfl | rfl <;> simp only [*, Option.isSome_some]
    · cases written
  · cases written

theorem insideString_codeUnit {digits : List Char} {unit : Nat}
    (written : codeUnit? digits = some unit) (rest : List Char) :
    insideString (digits ++ rest) = digits ++ insideString rest := by
  refine insideString_append (fun char member => ?_) rest
  have isSome := isSome_hexDigitValue?_of_mem written char member
  constructor <;> (rintro rfl; cases isSome)

theorem IsChar.insideString {text : List Char} {char : Char} (written : IsChar text char)
    (rest : List Char) : insideString (text ++ rest) = text ++ insideString rest := by
  cases written with
  | plain plain =>
      simp only [isPlain, Bool.and_eq_true, bne_iff_ne] at plain
      exact insideString_cons plain.1.1 plain.1.2 rest
  | short => simp [Json.insideString]
  | code unit => simp [Json.insideString, insideString_codeUnit unit]
  | surrogates first _ second _ _ =>
      simp [Json.insideString, insideString_codeUnit first, insideString_codeUnit second]

theorem IsChars.insideString : {text chars : List Char} → IsChars text chars →
    (rest : List Char) → insideString (text ++ rest) = text ++ Json.insideString rest
  | _, _, .nil, _ => rfl
  | _, _, .cons first others, rest => by
      rw [List.append_assoc, first.insideString, others.insideString rest, List.append_assoc]

theorem insideString_quote (rest : List Char) :
    insideString ('"' :: rest) = '"' :: withoutBreaks rest := by
  rw [insideString, if_pos rfl]
  simp

theorem IsString.withoutBreaks {text : List Char} {value : String} (written : IsString text value)
    (rest : List Char) : withoutBreaks (text ++ rest) = text ++ Json.withoutBreaks rest := by
  cases written with
  | @quoted inner _ chars =>
      have closed := chars.insideString ('"' :: rest)
      rw [insideString_quote] at closed
      rw [List.cons_append, List.append_assoc, List.singleton_append, Json.withoutBreaks,
        if_pos rfl, closed, List.cons_append, List.append_assoc, List.singleton_append]

/-! ## Values -/

theorem withoutBreaks_ofInt (number : Int) (rest : List Char) :
    withoutBreaks (Decimal.ofInt number ++ rest) =
      Decimal.ofInt number ++ withoutBreaks rest := by
  have digitsOutside : ∀ char ∈ Decimal.digits number.natAbs,
      char ≠ '"' ∧ isBreak char = false := by
    intro char member
    have isDigit := Decimal.isDigit_of_mem_digits member
    have noSpace := not_isSpace_of_isDigit isDigit
    constructor
    · rintro rfl
      cases isDigit
    · exact Bool.eq_false_iff.mpr fun found => by simp [isSpace_of_isBreak found] at noSpace
  refine withoutBreaks_append (fun char member => ?_) rest
  rw [(Parser.isNumeral_ofInt number).text_eq] at member
  split at member
  · rcases List.mem_cons.mp member with rfl | member
    · decide
    · exact digitsOutside char member
  · exact digitsOutside char member

section Layout

variable {breaks : Nat → List Char}

mutual

theorem Means.withoutBreaks_laidOut (breaksAre : ∀ depth, ∀ char ∈ breaks depth, isBreak char) :
    {value : Json} → {meaning : Data} → Means value meaning → (depth : Nat) →
    (rest : List Char) → withoutBreaks (laidOut breaks depth value ++ rest) =
      laidOut (fun _ => []) depth value ++ withoutBreaks rest
  | _, _, .boolean true, _, _ => rfl
  | _, _, .boolean false, _, _ => rfl
  | _, _, .integer value, _, rest => withoutBreaks_ofInt value rest
  | _, _, .string value, _, rest =>
      (IsString.quoted (isChars_flatMap value.toList)).withoutBreaks rest
  | _, _, .array .nil, _, _ => rfl
  | _, _, .array (.cons first others), depth, rest => by
      simp only [laidOut, List.cons_append, List.append_assoc, List.nil_append]
      rw [withoutBreaks_cons (by decide) (by decide),
        withoutBreaks_append_of_isBreak (breaksAre (depth + 1)),
        first.withoutBreaks_laidOut breaksAre (depth + 1),
        others.withoutBreaks_laidOutItems breaksAre depth rest]

theorem MeanItems.withoutBreaks_laidOutItems
    (breaksAre : ∀ depth, ∀ char ∈ breaks depth, isBreak char) :
    {items : List Json} → {meanings : List Data} → MeanItems items meanings → (depth : Nat) →
    (rest : List Char) → withoutBreaks (laidOutItems breaks depth items ++ rest) =
      laidOutItems (fun _ => []) depth items ++ withoutBreaks rest
  | _, _, .nil, depth, rest => by
      rw [laidOutItems, laidOutItems, List.append_assoc,
        withoutBreaks_append_of_isBreak (breaksAre depth), List.singleton_append,
        withoutBreaks_cons (by decide) (by decide), List.nil_append, List.singleton_append]
  | _, _, .cons item others, depth, rest => by
      simp only [laidOutItems, List.cons_append, List.append_assoc, List.nil_append]
      rw [withoutBreaks_cons (by decide) (by decide),
        withoutBreaks_append_of_isBreak (breaksAre (depth + 1)),
        item.withoutBreaks_laidOut breaksAre (depth + 1),
        others.withoutBreaks_laidOutItems breaksAre depth rest]

end

end Layout

theorem Means.withoutBreaks_pretty {value : Json} {meaning : Data} (means : Means value meaning) :
    withoutBreaks value.pretty = value.compact := by
  have breaksAre (depth : Nat) : ∀ char ∈ lineBreak depth, isBreak char := by
    simp [lineBreak, isBreak]
  have stripped := means.withoutBreaks_laidOut breaksAre 0 []
  rwa [List.append_nil, withoutBreaks, List.append_nil, ← pretty_eq_laidOut,
    ← compact_eq_laidOut 0] at stripped

end PuzzleKit.Json
