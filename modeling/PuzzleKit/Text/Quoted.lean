import PuzzleKit.Text.GraphemeExtend
import PuzzleKit.Text.Printable

/-!
# Quoted text

Text shown between double quotes, so that a reader can tell all of its characters apart. Characters
that cannot be seen, or that would blend with the one before them, are written by their number.
-/

set_option autoImplicit false

namespace PuzzleKit.Text

/-- The digits of a number to base sixteen, in lower case. -/
def hexDigits (number : Nat) : List Char :=
  Nat.toDigits 16 number

def numericEscape (char : Char) : List Char :=
  '\\' :: 'u' :: '\x7b' :: (hexDigits char.toNat ++ ['\x7d'])

def quotedChar (char : Char) : List Char :=
  if char = '\x00' then ['\\', '0']
  else if char = '\t' then ['\\', 't']
  else if char = '\n' then ['\\', 'n']
  else if char = '\r' then ['\\', 'r']
  else if char = '"' then ['\\', '"']
  else if char = '\\' then ['\\', '\\']
  else if isGraphemeExtend char || !isPrintable char then numericEscape char
  else [char]

def quoted (text : List Char) : List Char :=
  '"' :: (text.flatMap quotedChar ++ ['"'])

end PuzzleKit.Text
