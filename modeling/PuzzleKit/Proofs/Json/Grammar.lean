import Mathlib.Algebra.Field.Rat
import Mathlib.Tactic.Common
import PuzzleKit.Proofs.Parser.Numeral

/-!
# JSON texts and what they stand for

The texts of JSON by the rules of its grammar, each with the value that it stands for. White space
may stand around every value and every name, a number is exact whatever its notation, and a string
stands for characters that may be written in several ways. A surrogate without its partner stands
for no character.
-/

set_option autoImplicit false

namespace PuzzleKit.Json

open PuzzleKit.Parser (IsNumeral SignedNumeral)

/-- What a JSON text stands for. The members of an object are kept in their order. -/
inductive Data where
  | null
  | boolean (value : Bool)
  | number (value : ℚ)
  | string (value : String)
  | array (items : List Data)
  | object (members : List (String × Data))

def isSpace (char : Char) : Bool :=
  char == ' ' || char == '\t' || char == '\n' || char == '\r'

def IsSpace (text : List Char) : Prop :=
  ∀ char ∈ text, isSpace char = true

theorem not_isSpace_of_isDigit {char : Char} (isDigit : char.isDigit = true) :
    isSpace char = false := by
  rw [Bool.eq_false_iff]
  intro isSpace
  simp only [Json.isSpace, Bool.or_eq_true, beq_iff_eq] at isSpace
  rcases isSpace with ((rfl | rfl) | rfl) | rfl <;> cases isDigit

theorem isSpace_nil : IsSpace [] := by
  simp [IsSpace]

theorem IsSpace.append {left right : List Char} (leftSpaces : IsSpace left)
    (rightSpaces : IsSpace right) : IsSpace (left ++ right) := by
  intro char member
  exact (List.mem_append.mp member).elim (leftSpaces char) (rightSpaces char)

/-! ## Numbers -/

def IsDigits (text : List Char) : Prop :=
  text ≠ [] ∧ ∀ char ∈ text, char.isDigit = true

/-- The digits after a point, if there is one. -/
inductive IsFraction : List Char → List Char → Prop where
  | absent : IsFraction [] []
  | present {digits : List Char} : IsDigits digits → IsFraction ('.' :: digits) digits

/-- The sign of an exponent, and whether it is a minus. -/
inductive IsExponentSign : List Char → Bool → Prop where
  | absent : IsExponentSign [] false
  | plus : IsExponentSign ['+'] false
  | minus : IsExponentSign ['-'] true

def signedPower (negative : Bool) (digits : List Char) : Int :=
  if negative then -Decimal.value digits else Decimal.value digits

/-- The power of ten after an `e`, if there is one. -/
inductive IsExponent : List Char → Int → Prop where
  | absent : IsExponent [] 0
  | present {mark : Char} {sign digits : List Char} {negative : Bool} :
      mark = 'e' ∨ mark = 'E' → IsExponentSign sign negative → IsDigits digits →
      IsExponent (mark :: (sign ++ digits)) (signedPower negative digits)

/-- The number that all digits write, with the point where its place and the exponent put it. -/
def numberValue (whole : SignedNumeral) (fraction : List Char) (exponent : Int) : ℚ :=
  (SignedNumeral.value ⟨whole.negative, whole.digits ++ fraction⟩ : ℚ) *
    (10 : ℚ) ^ (exponent - fraction.length)

/-- The whole part of a number has no needless zero in front. -/
inductive IsNumber : List Char → ℚ → Prop where
  | written {wholeText fractionText exponentText fraction : List Char} {whole : SignedNumeral}
      {exponent : Int} :
      IsNumeral wholeText whole → whole.digits = ['0'] ∨ whole.digits.head? ≠ some '0' →
      IsFraction fractionText fraction → IsExponent exponentText exponent →
      IsNumber (wholeText ++ (fractionText ++ exponentText)) (numberValue whole fraction exponent)

/-! ## Strings -/

def hexDigitValue? (char : Char) : Option Nat :=
  if char.isDigit then some (char.toNat - '0'.toNat)
  else if 'a' ≤ char ∧ char ≤ 'f' then some (char.toNat - 'a'.toNat + 10)
  else if 'A' ≤ char ∧ char ≤ 'F' then some (char.toNat - 'A'.toNat + 10)
  else none

/-- The number that exactly four digits to base sixteen write. -/
def codeUnit? : List Char → Option Nat
  | [first, second, third, fourth] =>
      match hexDigitValue? first, hexDigitValue? second, hexDigitValue? third,
        hexDigitValue? fourth with
      | some first, some second, some third, some fourth =>
          some (((first * 16 + second) * 16 + third) * 16 + fourth)
      | _, _, _, _ => none
  | _ => none

/-- The characters that a backslash and a letter stand for. -/
def shortEscapes : List (Char × Char) :=
  [('"', '"'), ('\\', '\\'), ('/', '/'), ('b', '\x08'), ('f', '\x0c'), ('n', '\n'), ('r', '\r'),
    ('t', '\t')]

def isPlain (char : Char) : Bool :=
  char != '"' && char != '\\' && ' ' ≤ char

inductive IsChar : List Char → Char → Prop where
  | plain {char : Char} : isPlain char = true → IsChar [char] char
  | short {letter char : Char} :
      shortEscapes.lookup letter = some char → IsChar ['\\', letter] char
  | code {digits : List Char} {char : Char} :
      codeUnit? digits = some char.toNat → IsChar ('\\' :: 'u' :: digits) char
  | surrogates {first second : List Char} {high low : Nat} {char : Char} :
      codeUnit? first = some (0xd800 + high) → high < 0x400 →
      codeUnit? second = some (0xdc00 + low) → low < 0x400 →
      char.toNat = 0x10000 + high * 0x400 + low →
      IsChar ('\\' :: 'u' :: (first ++ '\\' :: 'u' :: second)) char

inductive IsChars : List Char → List Char → Prop where
  | nil : IsChars [] []
  | cons {text others chars : List Char} {char : Char} :
      IsChar text char → IsChars others chars → IsChars (text ++ others) (char :: chars)

inductive IsString : List Char → String → Prop where
  | quoted {text : List Char} {value : String} :
      IsChars text value.toList → IsString ('"' :: (text ++ ['"'])) value

inductive IsName : List Char → String → Prop where
  | padded {before text after : List Char} {name : String} :
      IsSpace before → IsString text name → IsSpace after → IsName (before ++ (text ++ after)) name

/-! ## Values -/

mutual

inductive IsValue : List Char → Data → Prop where
  | null : IsValue "null".toList .null
  | true : IsValue "true".toList (.boolean true)
  | false : IsValue "false".toList (.boolean false)
  | number {text : List Char} {value : ℚ} : IsNumber text value → IsValue text (.number value)
  | string {text : List Char} {value : String} :
      IsString text value → IsValue text (.string value)
  | emptyArray {space : List Char} : IsSpace space → IsValue ('[' :: (space ++ [']'])) (.array [])
  | array {text : List Char} {items : List Data} :
      IsElements text items → IsValue ('[' :: (text ++ [']'])) (.array items)
  | emptyObject {space : List Char} :
      IsSpace space → IsValue ('\x7b' :: (space ++ ['\x7d'])) (.object [])
  | object {text : List Char} {members : List (String × Data)} :
      IsMembers text members → IsValue ('\x7b' :: (text ++ ['\x7d'])) (.object members)

/-- A value with white space around it. A whole JSON text has this form. -/
inductive IsText : List Char → Data → Prop where
  | padded {before text after : List Char} {value : Data} :
      IsSpace before → IsValue text value → IsSpace after →
      IsText (before ++ (text ++ after)) value

/-- At least one value, with commas between them. -/
inductive IsElements : List Char → List Data → Prop where
  | last {text : List Char} {item : Data} : IsText text item → IsElements text [item]
  | more {text others : List Char} {item : Data} {items : List Data} :
      IsText text item → IsElements others items →
      IsElements (text ++ ',' :: others) (item :: items)

/-- At least one name with its value, with commas between them. -/
inductive IsMembers : List Char → List (String × Data) → Prop where
  | last {nameText text : List Char} {name : String} {value : Data} :
      IsName nameText name → IsText text value →
      IsMembers (nameText ++ ':' :: text) [(name, value)]
  | more {nameText text others : List Char} {name : String} {value : Data}
      {members : List (String × Data)} :
      IsName nameText name → IsText text value → IsMembers others members →
      IsMembers (nameText ++ ':' :: (text ++ ',' :: others)) ((name, value) :: members)

end

theorem IsValue.isText {text : List Char} {value : Data} (written : IsValue text value) :
    IsText text value := by
  have padded := IsText.padded isSpace_nil written isSpace_nil
  rwa [List.append_nil, List.nil_append] at padded

theorem IsText.append_space {text after : List Char} {value : Data} (written : IsText text value)
    (spaces : IsSpace after) : IsText (text ++ after) value := by
  cases written with
  | @padded before inner behind _ spacesBefore written spacesBehind =>
      rw [List.append_assoc, List.append_assoc]
      exact .padded spacesBefore written (spacesBehind.append spaces)

end PuzzleKit.Json
