import PuzzleKit.Json.Value
import PuzzleKit.Number.Layout
import PuzzleKit.Text.Quoted

/-!
# Writing JSON

A value has two texts: the compact one without any blanks, and the pretty one with every item on a
line of its own, indented by two spaces for each array around it. An empty array is written the
same in both.
-/

set_option autoImplicit false

namespace PuzzleKit.Json

/-- Doubles are written with a point, in positional notation from the fifth place after the point
up to sixteen digits before it, and with an explicitly signed exponent outside of that. -/
def doubleLayout : Decimal.Layout where
  positionalFrom := -5
  positionalTo := 15
  pointZero := true
  plusSign := true

/-- One character inside a string. Quotes, backslashes and controls are escaped, nothing else. -/
def stringChar (char : Char) : List Char :=
  if char = '"' then ['\\', '"']
  else if char = '\\' then ['\\', '\\']
  else if char = '\x08' then ['\\', 'b']
  else if char = '\x0c' then ['\\', 'f']
  else if char = '\n' then ['\\', 'n']
  else if char = '\r' then ['\\', 'r']
  else if char = '\t' then ['\\', 't']
  else if char.toNat < 0x20 then
    let digits := Text.hexDigits char.toNat
    '\\' :: 'u' :: (List.replicate (4 - digits.length) '0' ++ digits)
  else [char]

/-- The text of a value that is not an array. An infinity or NaN is no JSON number and is written
as `null`. -/
def scalar : Json → List Char
  | boolean value => if value then "true".toList else "false".toList
  | integer value => Decimal.ofInt value
  | double value => (doubleLayout.ofFloat? value).getD "null".toList
  | string value => '"' :: (value.toList.flatMap stringChar ++ ['"'])
  | array _ => []

mutual

def compact : Json → List Char
  | array items => '[' :: compactItems items
  | value => scalar value

/-- The items of an array and its closing bracket. -/
def compactItems : List Json → List Char
  | [] => [']']
  | [item] => compact item ++ [']']
  | item :: items => compact item ++ ',' :: compactItems items

end

/-- A line break, and the blanks at the front of a line inside `depth` arrays. -/
def lineBreak (depth : Nat) : List Char :=
  '\n' :: List.replicate (2 * depth) ' '

mutual

def prettyAt (depth : Nat) : Json → List Char
  | array [] => ['[', ']']
  | array (item :: items) =>
      '[' :: (lineBreak (depth + 1) ++ (prettyAt (depth + 1) item ++ prettyItems depth items))
  | value => scalar value

/-- The items of an array after the first, and its closing bracket. -/
def prettyItems (depth : Nat) : List Json → List Char
  | [] => lineBreak depth ++ [']']
  | item :: items =>
      ',' :: (lineBreak (depth + 1) ++ (prettyAt (depth + 1) item ++ prettyItems depth items))

end

def pretty (value : Json) : List Char :=
  prettyAt 0 value

end PuzzleKit.Json
