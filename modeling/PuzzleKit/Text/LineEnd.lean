/-!
# Line ends

Text is read with a newline as its only line end. Text from elsewhere may end its lines with a
carriage return and a newline; these two become one newline, and every other carriage return is
kept.
-/

set_option autoImplicit false

namespace PuzzleKit.Text

/-- Turns carriage return and newline into newline, behind text that was already read and is given
last character first. -/
def unifyLineEndsAfter (before : List Char) : List Char → List Char
  | [] => before.reverse
  | '\r' :: '\n' :: rest => unifyLineEndsAfter ('\n' :: before) rest
  | char :: rest => unifyLineEndsAfter (char :: before) rest

/-- Turns every carriage return that a newline follows, and that newline, into one newline. -/
def unifyLineEnds (text : List Char) : List Char :=
  unifyLineEndsAfter [] text

/-- The first line of a text, without its line end. A carriage return belongs to the line end only
if a newline follows it. -/
def firstLine (text : List Char) : List Char :=
  let line := text.takeWhile (· ≠ '\n')
  if line.length < text.length ∧ line.getLast? = some '\r' then line.dropLast else line

/-- The first line of a text that has one. The empty text has no lines. -/
def firstLine? (text : List Char) : Option (List Char) :=
  if text.isEmpty then none else some (firstLine text)

def newlineCount (text : List Char) : Nat :=
  text.count '\n'

end PuzzleKit.Text
