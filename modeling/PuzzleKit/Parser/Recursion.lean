import PuzzleKit.Parser.Basic

/-!
# Recursive parsers

A recursive parser is described by a body that is given the parser itself. The body may use it at
any place that is reached only after something was read. How deep such uses nest is bounded by the
length of the text, so the parser is the limit of its unfoldings, and on a given text that many
unfoldings already are the limit.
-/

set_option autoImplicit false

namespace PuzzleKit.Parser

variable {α : Type}

/-- The body unfolded `depth` times; below that it matches nowhere. The next unfolding is only
built when it is run. -/
def unfold (body : Parser α → Parser α) : Nat → Parser α
  | 0 => fail
  | depth + 1 =>
      { run := fun input => (body (unfold body depth)).run input
        run_suffix := fun found => (body (unfold body depth)).run_suffix found }

/-- The parser that `body` describes in terms of itself. -/
def recursive (body : Parser α → Parser α) : Parser α where
  run input := (unfold body (input.length + 1)).run input
  run_suffix found := (unfold body _).run_suffix found

end PuzzleKit.Parser
