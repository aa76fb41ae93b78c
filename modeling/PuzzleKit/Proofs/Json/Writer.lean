import PuzzleKit.Json.Writer
import PuzzleKit.Proofs.Json.Grammar

/-!
# What is written as JSON

Both texts of a value are JSON texts that stand for the value, and they differ in nothing but the
white space outside of strings.
-/

set_option autoImplicit false

namespace PuzzleKit.Json

open PuzzleKit.Parser (IsNumeral SignedNumeral)

mutual

/-- What a value stands for, if it holds no doubles. -/
inductive Means : Json → Data → Prop where
  | boolean (value : Bool) : Means (.boolean value) (.boolean value)
  | integer (value : Int) : Means (.integer value) (.number value)
  | string (value : String) : Means (.string value) (.string value)
  | array {items : List Json} {meanings : List Data} :
      MeanItems items meanings → Means (.array items) (.array meanings)

inductive MeanItems : List Json → List Data → Prop where
  | nil : MeanItems [] []
  | cons {item : Json} {meaning : Data} {items : List Json} {meanings : List Data} :
      Means item meaning → MeanItems items meanings →
      MeanItems (item :: items) (meaning :: meanings)

end

theorem MeanItems.of_map {α : Type} {write : α → Json} {meaning : α → Data}
    (means : ∀ item, Means (write item) (meaning item)) (items : List α) :
    MeanItems (items.map write) (items.map meaning) := by
  induction items with
  | nil => exact .nil
  | cons item items ih => exact .cons (means item) ih

/-! ## Scalars -/

theorem numberValue_whole (signed : SignedNumeral) :
    numberValue signed [] 0 = (signed.value : ℚ) := by
  simp [numberValue]

theorem isNumber_of_isNumeral {text : List Char} {signed : SignedNumeral}
    (numeral : IsNumeral text signed)
    (solid : signed.digits = ['0'] ∨ signed.digits.head? ≠ some '0') :
    IsNumber text (signed.value : ℚ) := by
  have written := IsNumber.written numeral solid .absent .absent
  rwa [List.append_nil, List.append_nil, numberValue_whole] at written

theorem isNumber_ofInt (number : Int) : IsNumber (Decimal.ofInt number) (number : ℚ) := by
  have written := isNumber_of_isNumeral (Parser.isNumeral_ofInt number)
    (Decimal.digits_eq_zero_or_head?_ne number.natAbs)
  rwa [SignedNumeral.value_ofInt] at written

/-- A control character is written by its number, with four digits to base sixteen. -/
theorem codeUnit?_control : ∀ code < 0x20,
    codeUnit? (List.replicate (4 - (Text.hexDigits code).length) '0' ++ Text.hexDigits code) =
      some code := by
  decide

theorem isChar_stringChar (char : Char) : IsChar (stringChar char) char := by
  by_cases short : char ∈ ['"', '\\', '\x08', '\x0c', '\n', '\r', '\t']
  · simp only [List.mem_cons, List.not_mem_nil, or_false] at short
    rcases short with rfl | rfl | rfl | rfl | rfl | rfl | rfl <;> exact .short rfl
  · simp only [List.mem_cons, List.not_mem_nil, or_false, not_or] at short
    simp only [stringChar, short, ↓reduceIte]
    split
    · next control => exact .code (codeUnit?_control char.toNat control)
    · next visible =>
        refine .plain ?_
        have above : ' ' ≤ char := Nat.le_of_not_lt visible
        simp [isPlain, short, above]

theorem isChars_flatMap (chars : List Char) : IsChars (chars.flatMap stringChar) chars := by
  induction chars with
  | nil => exact .nil
  | cons char chars ih => exact .cons (isChar_stringChar char) ih

/-! ## Layouts -/

mutual

/-- A value with the given text in front of every item and every closing bracket, unless the array
is empty. -/
def laidOut (breaks : Nat → List Char) (depth : Nat) : Json → List Char
  | .array [] => ['[', ']']
  | .array (item :: items) =>
      '[' :: (breaks (depth + 1) ++
        (laidOut breaks (depth + 1) item ++ laidOutItems breaks depth items))
  | value => scalar value

def laidOutItems (breaks : Nat → List Char) (depth : Nat) : List Json → List Char
  | [] => breaks depth ++ [']']
  | item :: items =>
      ',' :: (breaks (depth + 1) ++
        (laidOut breaks (depth + 1) item ++ laidOutItems breaks depth items))

end

mutual

theorem prettyAt_eq_laidOut : (depth : Nat) → (value : Json) →
    prettyAt depth value = laidOut lineBreak depth value
  | depth, .array [] => by rw [prettyAt, laidOut]
  | depth, .array (item :: items) => by
      rw [prettyAt, laidOut, prettyAt_eq_laidOut (depth + 1) item,
        prettyItems_eq_laidOutItems depth items]
  | _, .boolean _ => rfl
  | _, .integer _ => rfl
  | _, .double _ => rfl
  | _, .string _ => rfl

theorem prettyItems_eq_laidOutItems : (depth : Nat) → (items : List Json) →
    prettyItems depth items = laidOutItems lineBreak depth items
  | depth, [] => by rw [prettyItems, laidOutItems]
  | depth, item :: items => by
      rw [prettyItems, laidOutItems, prettyAt_eq_laidOut (depth + 1) item,
        prettyItems_eq_laidOutItems depth items]

end

theorem pretty_eq_laidOut (value : Json) : value.pretty = laidOut lineBreak 0 value :=
  prettyAt_eq_laidOut 0 value

mutual

theorem compact_eq_laidOut : (depth : Nat) → (value : Json) →
    compact value = laidOut (fun _ => []) depth value
  | _, .array [] => by rw [compact, compactItems, laidOut]
  | depth, .array (item :: items) => by
      rw [compact, laidOut, compactItems_eq_laidOutItems depth item items, List.nil_append]
  | _, .boolean _ => rfl
  | _, .integer _ => rfl
  | _, .double _ => rfl
  | _, .string _ => rfl
termination_by _ value => sizeOf value

/-- The compact writer looks ahead for another item before it writes a comma; a layout writes the
comma with the item behind it. So the two agree from one item on. -/
theorem compactItems_eq_laidOutItems : (depth : Nat) → (item : Json) → (items : List Json) →
    compactItems (item :: items) = laidOut (fun _ => []) (depth + 1) item ++
      laidOutItems (fun _ => []) depth items
  | depth, item, [] => by
      rw [compactItems, laidOutItems, compact_eq_laidOut (depth + 1) item, List.nil_append]
  | depth, item, next :: items => by
      rw [compactItems, laidOutItems, compact_eq_laidOut (depth + 1) item,
        compactItems_eq_laidOutItems depth next items, List.nil_append]
      exact List.cons_ne_nil next items
termination_by _ item items => sizeOf (item :: items)

end

/-! ## What a layout stands for -/

section Layout

variable {breaks : Nat → List Char}

mutual

theorem Means.isValue (spaces : ∀ depth, IsSpace (breaks depth)) :
    {value : Json} → {meaning : Data} → Means value meaning → (depth : Nat) →
    IsValue (laidOut breaks depth value) meaning
  | _, _, .boolean true, _ => .true
  | _, _, .boolean false, _ => .false
  | _, _, .integer value, _ => .number (isNumber_ofInt value)
  | _, _, .string value, _ => .string (.quoted (isChars_flatMap value.toList))
  | _, _, .array .nil, _ => .emptyArray isSpace_nil
  | _, _, .array (.cons first others), depth => by
      obtain ⟨text, split, elements⟩ := others.exists_elements spaces depth
        (.padded (spaces (depth + 1)) (first.isValue spaces (depth + 1)) isSpace_nil)
      rw [List.append_nil, List.append_assoc] at split
      rw [laidOut, split]
      exact .array elements

/-- A layout writes the bracket behind the last item, the grammar keeps it apart from the items. The
text of the item in front is an argument, since its last white space may stand behind it. -/
theorem MeanItems.exists_elements (spaces : ∀ depth, IsSpace (breaks depth)) :
    {items : List Json} → {meanings : List Data} → MeanItems items meanings → (depth : Nat) →
    {front : List Char} → {first : Data} → IsText front first →
    ∃ text, front ++ laidOutItems breaks depth items = text ++ [']'] ∧
      IsElements text (first :: meanings)
  | _, _, .nil, depth, front, _, written =>
      ⟨front ++ breaks depth, by simp [laidOutItems], .last (written.append_space (spaces depth))⟩
  | _, _, .cons item others, depth, front, _, written => by
      obtain ⟨text, split, elements⟩ := others.exists_elements spaces depth
        (.padded (spaces (depth + 1)) (item.isValue spaces (depth + 1)) isSpace_nil)
      rw [List.append_nil, List.append_assoc] at split
      refine ⟨front ++ ',' :: text, ?_, .more written elements⟩
      rw [laidOutItems, split, List.append_assoc, List.cons_append]

end

end Layout

theorem isSpace_lineBreak (depth : Nat) : IsSpace (lineBreak depth) := by
  intro char member
  simp only [lineBreak, List.mem_cons, List.mem_replicate] at member
  rcases member with rfl | ⟨_, rfl⟩ <;> rfl

theorem Means.isText_compact {value : Json} {meaning : Data} (means : Means value meaning) :
    IsText value.compact meaning := by
  rw [compact_eq_laidOut 0]
  exact (means.isValue (fun _ => isSpace_nil) 0).isText

theorem Means.isText_pretty {value : Json} {meaning : Data} (means : Means value meaning) :
    IsText value.pretty meaning := by
  rw [pretty_eq_laidOut]
  exact (means.isValue isSpace_lineBreak 0).isText

end PuzzleKit.Json
