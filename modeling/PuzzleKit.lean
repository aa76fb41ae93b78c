import PuzzleKit.Command.Arguments
import PuzzleKit.Command.Directory
import PuzzleKit.Command.Log
import PuzzleKit.Command.Run
import PuzzleKit.Json.Value
import PuzzleKit.Json.Writer
import PuzzleKit.Linear.Angle
import PuzzleKit.Linear.Mat
import PuzzleKit.Linear.Scalar
import PuzzleKit.Linear.Vec
import PuzzleKit.Main
import PuzzleKit.Number.Binary64
import PuzzleKit.Number.Decimal
import PuzzleKit.Number.Divisor
import PuzzleKit.Number.Layout
import PuzzleKit.Number.Shortest
import PuzzleKit.Parser.Basic
import PuzzleKit.Parser.Character
import PuzzleKit.Parser.Grammar
import PuzzleKit.Parser.Grapheme
import PuzzleKit.Parser.Numeral
import PuzzleKit.Parser.Recursion
import PuzzleKit.Parser.Repetition
import PuzzleKit.Proofs.Command.Directory
import PuzzleKit.Proofs.Command.LineEnd
import PuzzleKit.Proofs.Command.Report
import PuzzleKit.Proofs.Grammar.Evaluation
import PuzzleKit.Proofs.Grammar.Guarded
import PuzzleKit.Proofs.Grammar.Nesting
import PuzzleKit.Proofs.Grammar.Rest
import PuzzleKit.Proofs.Grammar.Termination
import PuzzleKit.Proofs.Json.Grammar
import PuzzleKit.Proofs.Json.Layout
import PuzzleKit.Proofs.Json.Reader
import PuzzleKit.Proofs.Json.Token
import PuzzleKit.Proofs.Json.Writer
import PuzzleKit.Proofs.Linear.Angle
import PuzzleKit.Proofs.Linear.Determinant
import PuzzleKit.Proofs.Linear.DotError
import PuzzleKit.Proofs.Linear.Identity
import PuzzleKit.Proofs.Linear.Product
import PuzzleKit.Proofs.Linear.Transpose
import PuzzleKit.Proofs.Number.Arithmetic
import PuzzleKit.Proofs.Number.Decimal
import PuzzleKit.Proofs.Number.Divisor
import PuzzleKit.Proofs.Number.Dyadic
import PuzzleKit.Proofs.Number.Grid
import PuzzleKit.Proofs.Number.Mantissa
import PuzzleKit.Proofs.Number.Nearest
import PuzzleKit.Proofs.Number.Order
import PuzzleKit.Proofs.Number.RelativeError
import PuzzleKit.Proofs.Number.Rounding
import PuzzleKit.Proofs.Number.Value
import PuzzleKit.Proofs.Number.Whole
import PuzzleKit.Proofs.Number.Written
import PuzzleKit.Proofs.Parser.Chain
import PuzzleKit.Proofs.Parser.Choice
import PuzzleKit.Proofs.Parser.Consumption
import PuzzleKit.Proofs.Parser.Double
import PuzzleKit.Proofs.Parser.Graphemes
import PuzzleKit.Proofs.Parser.Integer
import PuzzleKit.Proofs.Parser.Laws
import PuzzleKit.Proofs.Parser.Lines
import PuzzleKit.Proofs.Parser.Literal
import PuzzleKit.Proofs.Parser.LongestRun
import PuzzleKit.Proofs.Parser.NestedRepetition
import PuzzleKit.Proofs.Parser.Numeral
import PuzzleKit.Proofs.Parser.Repeats
import PuzzleKit.Proofs.Parser.Success
import PuzzleKit.Proofs.Parser.WrittenLines
import PuzzleKit.Proofs.Rows.Document
import PuzzleKit.Proofs.Rows.Grid
import PuzzleKit.Proofs.Rows.Line
import PuzzleKit.Proofs.Rows.LineReader
import PuzzleKit.Proofs.Rows.Printed
import PuzzleKit.Proofs.Rows.Token
import PuzzleKit.Proofs.Sensor
import PuzzleKit.Proofs.Table
import PuzzleKit.Proofs.Text.Cut
import PuzzleKit.Proofs.Text.LineEnd
import PuzzleKit.Proofs.Text.Lines
import PuzzleKit.Proofs.Text.Quoted
import PuzzleKit.Rows.Document
import PuzzleKit.Rows.Row
import PuzzleKit.Rows.Shape
import PuzzleKit.Sensor
import PuzzleKit.Table
import PuzzleKit.Text.CodeRanges
import PuzzleKit.Text.Conjunct
import PuzzleKit.Text.Grapheme
import PuzzleKit.Text.GraphemeBreak
import PuzzleKit.Text.GraphemeExtend
import PuzzleKit.Text.Input
import PuzzleKit.Text.LineEnd
import PuzzleKit.Text.Printable
import PuzzleKit.Text.Quoted
import PuzzleKit.Text.WhiteSpace
