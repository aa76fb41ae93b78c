import PuzzleKit.Parser.Basic

/-!
# Repetition

A repetition goes on as long as its parser matches and reads something. A match that reads nothing
would repeat forever; it ends the repetition and is not counted. The unread text gets shorter at
every turn, so every repetition ends, whatever is repeated.
-/

set_option autoImplicit false

namespace PuzzleKit.Parser

variable {α β : Type}

/-- Repeats `parser` from `input` on. The values that were already found come latest first. -/
def repeatFrom (parser : Parser α) (input : Input) (found : List α) : List α × Input :=
  match parser.run input with
  | none => (found.reverse, input)
  | some (value, rest) =>
      if rest.length < input.length then
        repeatFrom parser rest (value :: found)
      else
        (found.reverse, input)
termination_by input.length

theorem suffix_of_repeatFrom {parser : Parser α} {input rest : Input} {found values : List α}
    (ended : repeatFrom parser input found = (values, rest)) : rest.chars <:+ input.chars := by
  fun_induction repeatFrom parser input found with
  | case1 => cases ended; exact List.suffix_rfl
  | case2 input found value middle matched shorter ih =>
      exact (ih ended).trans (parser.run_suffix matched)
  | case3 => cases ended; exact List.suffix_rfl

/-- Zero or more values, as many as there are. Always matches. -/
def many (parser : Parser α) : Parser (List α) where
  run input := some (repeatFrom parser input [])
  run_suffix {input rest values} found := by
    exact suffix_of_repeatFrom (Option.some.inj found)

def many1 (parser : Parser α) : Parser (List α) :=
  (many parser).filterMap fun values => if values.isEmpty then none else some values

/-- Zero or more values with a separator between any two. A separator that no value follows is
left unread. Always matches. -/
def sepBy (item : Parser α) (separator : Parser β) : Parser (List α) where
  run input :=
    match item.run input with
    | none => some ([], input)
    | some (first, rest) => some (repeatFrom (separator.seqRight item) rest [first])
  run_suffix {input rest values} found := by
    split at found
    · cases found; exact List.suffix_rfl
    · next matched =>
        exact (suffix_of_repeatFrom (Option.some.inj found)).trans (item.run_suffix matched)

end PuzzleKit.Parser
