/-!
# Text still to be read

An `Input` is the part of a text that no parser has read yet. It keeps its number of characters
beside the characters, so that asking whether a parser has read anything never walks the text.
-/

set_option autoImplicit false

namespace PuzzleKit

/-- Text that has not been read yet. The length is that of the characters. -/
structure Input where
  chars : List Char
  length : Nat
  length_eq : length = chars.length
deriving DecidableEq

namespace Input

@[ext]
theorem ext {left right : Input} (charsEq : left.chars = right.chars) : left = right := by
  obtain ⟨leftChars, leftLength, leftLengthEq⟩ := left
  obtain ⟨rightChars, rightLength, rightLengthEq⟩ := right
  cases charsEq
  cases leftLengthEq.trans rightLengthEq.symm
  rfl

def ofChars (chars : List Char) : Input :=
  ⟨chars, chars.length, rfl⟩

def ofString (text : String) : Input :=
  ofChars text.toList

def toString (input : Input) : String :=
  String.ofList input.chars

def isEmpty (input : Input) : Bool :=
  input.chars.isEmpty

def next? (input : Input) : Option (Char × Input) :=
  match input with
  | ⟨[], _, _⟩ => none
  | ⟨char :: chars, length, lengthEq⟩ =>
      some (char, ⟨chars, length - 1, by simp [lengthEq]⟩)

def drop (count : Nat) (input : Input) : Input :=
  ⟨input.chars.drop count, input.length - count, by simp [input.length_eq]⟩

@[simp]
theorem chars_ofChars (chars : List Char) : (ofChars chars).chars = chars := rfl

@[simp]
theorem length_ofChars (chars : List Char) : (ofChars chars).length = chars.length := rfl

@[simp]
theorem ofChars_chars (input : Input) : ofChars input.chars = input := ext rfl

@[simp]
theorem chars_drop (count : Nat) (input : Input) :
    (input.drop count).chars = input.chars.drop count := rfl

theorem isEmpty_iff (input : Input) : input.isEmpty = true ↔ input.chars = [] := by
  simp [isEmpty]

theorem next?_eq_some_iff (input : Input) (char : Char) (rest : Input) :
    input.next? = some (char, rest) ↔ input.chars = char :: rest.chars := by
  obtain ⟨chars, length, lengthEq⟩ := input
  cases chars with
  | nil => simp [next?]
  | cons head tail =>
      simp only [next?, Option.some.injEq, Prod.mk.injEq, List.cons.injEq]
      exact and_congr_right fun _ => ⟨fun same => same ▸ rfl, fun same => ext same⟩

theorem next?_suffix {input rest : Input} {char : Char}
    (found : input.next? = some (char, rest)) : rest.chars <:+ input.chars :=
  (next?_eq_some_iff input char rest).mp found ▸ List.suffix_cons char rest.chars

theorem length_le_of_suffix {input rest : Input} (suffix : rest.chars <:+ input.chars) :
    rest.length ≤ input.length := by
  rw [rest.length_eq, input.length_eq]
  exact suffix.length_le

theorem eq_of_suffix_of_length_le {input rest : Input} (suffix : rest.chars <:+ input.chars)
    (long : input.length ≤ rest.length) : rest = input := by
  rw [rest.length_eq, input.length_eq] at long
  exact ext (suffix.eq_of_length (Nat.le_antisymm suffix.length_le long))

end Input

end PuzzleKit
