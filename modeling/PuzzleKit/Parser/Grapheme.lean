import PuzzleKit.Parser.Basic
import PuzzleKit.Text.Grapheme

/-!
# Reading graphemes

One step reads one extended grapheme cluster. It sees only the text from there on, never the text
that was read before.
-/

set_option autoImplicit false

namespace PuzzleKit.Parser

def grapheme : Parser String :=
  ofRead fun chars =>
    if chars.isEmpty then
      none
    else
      let count := Text.graphemeLength chars
      some (String.ofList (chars.take count), count)

end PuzzleKit.Parser
