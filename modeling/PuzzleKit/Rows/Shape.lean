import PuzzleKit.Json.Value
import PuzzleKit.Rows.Row

/-!
# Shapes of a file

The shape of a file says what the lines of the file are made of: values of one kind, or single
characters.
-/

set_option autoImplicit false

namespace PuzzleKit.Rows

/-- How every line of a file is read. -/
inductive Shape where
  | ints
  | doubles
  | bools
  | words
  | grid
deriving DecidableEq, Repr

namespace Shape

def all : List Shape :=
  [ints, doubles, bools, words, grid]

def name : Shape → String
  | ints => "ints"
  | doubles => "doubles"
  | bools => "bools"
  | words => "words"
  | grid => "grid"

/-- The name by which a shape is reported. -/
def title : Shape → String
  | ints => "Ints"
  | doubles => "Doubles"
  | bools => "Bools"
  | words => "Words"
  | grid => "Grid"

/-- The shape of a name, which must be spelled exactly. -/
def ofName? (name : String) : Option Shape :=
  all.find? fun shape => shape.name == name

abbrev Cell : Shape → Type
  | ints => Int64
  | doubles => Float
  | bools => Bool
  | words => String
  | grid => Char

def line : (shape : Shape) → Parser (List shape.Cell)
  | ints => row Parser.integer
  | doubles => row Parser.double
  | bools => row Parser.boolean
  | words => row word
  | grid => cells

def rows (shape : Shape) : Parser (List (List shape.Cell)) :=
  Parser.lines shape.line

def cellJson : (shape : Shape) → shape.Cell → Json
  | ints, cell => .integer cell.toInt
  | doubles, cell => .double cell
  | bools, cell => .boolean cell
  | words, cell => .string cell
  | grid, cell => .string (String.singleton cell)

def rowsJson (shape : Shape) (rows : List (List shape.Cell)) : Json :=
  .array (rows.map fun row => .array (row.map shape.cellJson))

end Shape

end PuzzleKit.Rows
