import PuzzleKit.Json.Writer
import PuzzleKit.Rows.Shape
import PuzzleKit.Text.LineEnd

/-!
# Whole documents

A document must be read to its end. If it is not, the place where reading stopped is reported by
the number of its line and the text of that line from there on.
-/

set_option autoImplicit false

namespace PuzzleKit.Rows

inductive ReadError where
  | noMatch
  | unexpectedInput (line : Nat) (text : List Char)
deriving DecidableEq, Repr

def ReadError.message : ReadError → String
  | noMatch => "input did not match"
  | unexpectedInput line text =>
      "unexpected input on line " ++ String.ofList (Decimal.digits line) ++ ": " ++
        String.ofList (Text.quoted text)

/-- The part of a text that stands before an end of it. -/
def consumed (input rest : Input) : List Char :=
  input.chars.take (input.length - rest.length)

theorem consumed_of_append {input rest : Input} {taken : List Char}
    (split : input.chars = taken ++ rest.chars) : consumed input rest = taken := by
  simp only [consumed, input.length_eq, rest.length_eq, split, List.length_append,
    Nat.add_sub_cancel, List.take_left]

/-- The error for a text of which `rest` was left over. If the rest had no line, all of it would be
shown. -/
def leftOver (input rest : Input) : ReadError :=
  .unexpectedInput (Text.newlineCount (consumed input rest) + 1)
    ((Text.firstLine? rest.chars).getD rest.chars)

def readAll {α : Type} (parser : Parser α) (input : Input) : Except ReadError α :=
  match parser.run input with
  | none => .error .noMatch
  | some (value, rest) => if rest.isEmpty then .ok value else .error (leftOver input rest)

def jsonText (shape : Shape) (pretty : Bool) (input : Input) : Except ReadError String :=
  match readAll shape.rows input with
  | .error error => .error error
  | .ok rows =>
      let value := shape.rowsJson rows
      .ok (String.ofList (if pretty then value.pretty else value.compact))

end PuzzleKit.Rows
