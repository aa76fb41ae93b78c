import PuzzleKit.Parser.Repetition
import PuzzleKit.Text.WhiteSpace

/-!
# Reading characters and lines

Single characters, fixed words, runs of white space, and lines. A line ends with a newline or with
the text; the empty end of a text is not a line of its own, because reading it makes no progress.
-/

set_option autoImplicit false

namespace PuzzleKit.Parser

variable {α : Type}

def item : Parser Char where
  run := Input.next?
  run_suffix := Input.next?_suffix

def endOfInput : Parser Unit where
  run input := if input.isEmpty then some ((), input) else none
  run_suffix {input rest value} found := by
    split at found
    · cases found; exact List.suffix_rfl
    · cases found

def satisfy (accepts : Char → Bool) : Parser Char :=
  item.filterMap fun char => if accepts char then some char else none

def character (expected : Char) : Parser Char :=
  satisfy fun char => char == expected

/-- The text after the given characters, read one by one. -/
def skip? (expected : List Char) (input : Input) : Option Input :=
  expected.foldlM (fun rest char => ((character char).run rest).map Prod.snd) input

theorem skip?_suffix {expected : List Char} {input rest : Input}
    (found : skip? expected input = some rest) : rest.chars <:+ input.chars := by
  induction expected generalizing input with
  | nil => cases found; exact List.suffix_rfl
  | cons char expected ih =>
      obtain ⟨middle, first, others⟩ := Option.bind_eq_some_iff.mp found
      obtain ⟨⟨value, after⟩, matched, rfl⟩ := Option.map_eq_some_iff.mp first
      exact (ih others).trans ((character char).run_suffix matched)

/-- A given word, yielded as it is. The empty word matches everywhere. -/
def string (target : String) : Parser String where
  run input :=
    match skip? target.toList input with
    | some rest => some (target, rest)
    | none => none
  run_suffix {input rest value} found := by
    split at found
    · next skipped => cases found; exact skip?_suffix skipped
    · cases found

def newline : Parser Char :=
  character '\n'

/-- A newline or the end of the text. -/
def endOfLine : Parser Unit :=
  (newline.map fun _ => ()).orElse endOfInput

/-- The longest run of white space, possibly empty. -/
def whitespace : Parser String :=
  (many (satisfy Text.isWhiteSpace)).map String.ofList

/-- Zero or more values, each followed by the end of its line. -/
def lines (parser : Parser α) : Parser (List α) :=
  many (parser.seqLeft endOfLine)

end PuzzleKit.Parser
