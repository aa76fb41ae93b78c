import PuzzleKit.Text.Input

/-!
# Parsers

A parser reads a value from the front of a text and hands back the text it left unread, or it does
not match at all. Not matching carries no position and no message. A parser may only hand back an
end of the text that it was given: this is a field of the type, so it holds of every parser that
can be written down and needs no proof at its uses.

The combinators here are sequencing and left-biased choice. Each is written out on its own; none
is defined through another.
-/

set_option autoImplicit false

namespace PuzzleKit

/-- A way to read a value from the front of a text. -/
structure Parser (α : Type) where
  /-- The value read and the text after it, or `none` if the text does not match. -/
  run : Input → Option (α × Input)
  /-- What is left is an end of what was given. -/
  run_suffix : ∀ {input rest : Input} {value : α},
    run input = some (value, rest) → rest.chars <:+ input.chars

namespace Parser

variable {α β γ : Type}

@[ext]
theorem ext {left right : Parser α} (runEq : ∀ input, left.run input = right.run input) :
    left = right := by
  obtain ⟨leftRun, leftSuffix⟩ := left
  obtain ⟨rightRun, rightSuffix⟩ := right
  cases (funext runEq : leftRun = rightRun)
  rfl

def parse (parser : Parser α) (input : Input) : Option α :=
  (parser.run input).map Prod.fst

/-- The parser that yields what `read` makes of the text, and reads as many characters as it says. -/
def ofRead (read : List Char → Option (α × Nat)) : Parser α where
  run input :=
    match read input.chars with
    | none => none
    | some (value, count) => some (value, input.drop count)
  run_suffix {input rest value} found := by
    split at found
    · cases found
    · cases found; exact List.drop_suffix _ _

def succeed (value : α) : Parser α where
  run input := some (value, input)
  run_suffix found := by
    cases found
    exact List.suffix_rfl

def fail : Parser α where
  run _ := none
  run_suffix found := nomatch found

def map (parser : Parser α) (transform : α → β) : Parser β where
  run input :=
    match parser.run input with
    | none => none
    | some (value, rest) => some (transform value, rest)
  run_suffix {input rest value} found := by
    split at found
    · cases found
    · next first => cases found; exact parser.run_suffix first

/-- Like `map`, but a value on which `transform` is undefined is no match. -/
def filterMap (parser : Parser α) (transform : α → Option β) : Parser β where
  run input :=
    match parser.run input with
    | none => none
    | some (value, rest) =>
        match transform value with
        | none => none
        | some image => some (image, rest)
  run_suffix {input rest value} found := by
    split at found
    · cases found
    · next first =>
        split at found
        · cases found
        · cases found; exact parser.run_suffix first

def bind (parser : Parser α) (next : α → Parser β) : Parser β where
  run input :=
    match parser.run input with
    | none => none
    | some (value, rest) => (next value).run rest
  run_suffix {input rest value} found := by
    split at found
    · cases found
    · next first => exact ((next _).run_suffix found).trans (parser.run_suffix first)

/-- Left-biased choice. The second parser is tried only when the first does not match, and it
starts where the first one started. -/
def orElse (first second : Parser α) : Parser α where
  run input :=
    match first.run input with
    | some outcome => some outcome
    | none => second.run input
  run_suffix {input rest value} found := by
    split at found
    · next matched => cases found; exact first.run_suffix matched
    · exact second.run_suffix found

def pair (first : Parser α) (second : Parser β) : Parser (α × β) where
  run input :=
    match first.run input with
    | none => none
    | some (left, middle) =>
        match second.run middle with
        | none => none
        | some (right, rest) => some ((left, right), rest)
  run_suffix {input rest value} found := by
    split at found
    · cases found
    · next matched =>
        split at found
        · cases found
        · next followed =>
            cases found
            exact (second.run_suffix followed).trans (first.run_suffix matched)

def seqLeft (first : Parser α) (second : Parser β) : Parser α where
  run input :=
    match first.run input with
    | none => none
    | some (left, middle) =>
        match second.run middle with
        | none => none
        | some (_, rest) => some (left, rest)
  run_suffix {input rest value} found := by
    split at found
    · cases found
    · next matched =>
        split at found
        · cases found
        · next followed =>
            cases found
            exact (second.run_suffix followed).trans (first.run_suffix matched)

def seqRight (first : Parser α) (second : Parser β) : Parser β where
  run input :=
    match first.run input with
    | none => none
    | some (_, middle) => second.run middle
  run_suffix {input rest value} found := by
    split at found
    · cases found
    · next matched => exact (second.run_suffix found).trans (first.run_suffix matched)

/-- The value read, or nothing at all: a parser that always matches. -/
def optional (parser : Parser α) : Parser (Option α) where
  run input :=
    match parser.run input with
    | some (value, rest) => some (some value, rest)
    | none => some (none, input)
  run_suffix {input rest value} found := by
    split at found
    · next matched => cases found; exact parser.run_suffix matched
    · cases found; exact List.suffix_rfl

/-- Ordered choice: the first parser of the list that matches, each tried from the same place. -/
def firstOf (parsers : List (Parser α)) : Parser α where
  run input := parsers.findSome? fun parser => parser.run input
  run_suffix {input rest value} found := by
    obtain ⟨parser, _, matched⟩ := List.exists_of_findSome?_eq_some found
    exact parser.run_suffix matched

theorem length_le_of_run {parser : Parser α} {input rest : Input} {value : α}
    (found : parser.run input = some (value, rest)) : rest.length ≤ input.length :=
  Input.length_le_of_suffix (parser.run_suffix found)

end Parser

end PuzzleKit
