import PuzzleKit.Parser.Grammar

/-!
# Rows of values

A row is a line of values. Between two values there are blanks, commas, or both in any mix; before
the first and after the last there may be blanks only.
-/

set_option autoImplicit false

namespace PuzzleKit.Rows

variable {α : Type}

def isBlank (char : Char) : Bool :=
  char == ' ' || char == '\t'

def isGapChar (char : Char) : Bool :=
  isBlank char || char == ','

def isWordChar (char : Char) : Bool :=
  !Text.isWhiteSpace char && char != ','

def blanks : Parser Unit :=
  (Parser.many (Parser.satisfy isBlank)).map fun _ => ()

/-- What stands between two values. -/
def gap : Parser Unit :=
  (Parser.many1 (Parser.satisfy isGapChar)).map fun _ => ()

def row (value : Parser α) : Parser (List α) :=
  (blanks.seqRight (value.sepBy gap)).seqLeft blanks

def word : Parser String :=
  (Parser.many1 (Parser.satisfy isWordChar)).map String.ofList

/-- The cells of one line: all of its characters. -/
def cells : Parser (List Char) :=
  Parser.many (Parser.satisfy (· != '\n'))

end PuzzleKit.Rows

namespace PuzzleKit.Grammar

def row {scope : List Type} {α : Type} (value : Grammar scope α) : Grammar scope (List α) :=
  .seqLeft
    (.seqRight (.primitive (.custom Rows.blanks))
      (.sepBy value (.primitive (.custom Rows.gap))))
    (.primitive (.custom Rows.blanks))

theorem parser_row {scope : List Type} {α : Type} (value : Grammar scope α)
    (environment : Environment scope) :
    value.row.parser environment = Rows.row (value.parser environment) :=
  rfl

end PuzzleKit.Grammar
