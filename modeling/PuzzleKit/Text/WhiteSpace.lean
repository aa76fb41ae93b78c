/-!
# White space

The characters with the Unicode property White_Space. The set is larger than the ASCII blanks:
it holds the next-line control, the no-break space and the blanks of the general punctuation block.
-/

set_option autoImplicit false

namespace PuzzleKit.Text

/-- The Unicode property White_Space. -/
def isWhiteSpace (char : Char) : Bool :=
  let code := char.toNat
  (0x09 ≤ code && code ≤ 0x0D) || code == 0x20 || code == 0x85 || code == 0xA0 ||
    code == 0x1680 || (0x2000 ≤ code && code ≤ 0x200A) || code == 0x2028 || code == 0x2029 ||
    code == 0x202F || code == 0x205F || code == 0x3000

end PuzzleKit.Text
