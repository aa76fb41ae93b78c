import PuzzleKit.Proofs.Grammar.Evaluation
import PuzzleKit.Rows.Document

/-!
# What a grammar leaves unread

Whatever a grammar reads stands at the front of its text, and what it leaves is an end of it. This
is shown along the calls of an evaluation, so it does not depend on what the grammar refers to or
how deep its calls nest.
-/

set_option autoImplicit false

namespace PuzzleKit.Grammar

variable {scope : List Type} {α : Type}

theorem Evaluates.suffix {grammar : Grammar scope α} {bindings : Bindings scope} {input : Input}
    {outcome : Option (α × Input)} (evaluated : Evaluates grammar bindings input outcome) :
    ∀ found ∈ outcome, found.2.chars <:+ input.chars := by
  induction evaluated with
  | primitive ran =>
      intro found matched
      cases matched
      exact Parser.run_suffix _ ran
  | innermost _ ih | outer _ ih | lazy _ ih => exact ih
  | mapNone | filterMapNone | filterMapReject | bindNone | firstOfNone | pairFirst | pairSecond
  | seqLeftFirst | seqLeftSecond | seqRightFirst => exact fun found impossible => nomatch impossible
  | mapSome _ ih | filterMapSome _ _ ih | optionalSome _ ih =>
      intro found matched
      cases matched
      exact ih _ rfl
  | orElseFirst _ ih | orElseSecond _ _ _ ih | firstOfSome _ _ _ ih => exact ih
  | optionalNone | manyEnd | manyEmpty | sepByNone =>
      intro found matched
      cases matched
      exact List.suffix_rfl
  | bindSome _ _ firstIH secondIH | seqRightSecond _ _ firstIH secondIH =>
      exact fun found ended => (secondIH found ended).trans (firstIH _ rfl)
  | pairBoth _ _ firstIH secondIH | seqLeftBoth _ _ firstIH secondIH
  | manyStep _ _ _ firstIH secondIH | sepBySome _ _ firstIH secondIH =>
      intro found matched
      cases matched
      exact (secondIH _ rfl).trans (firstIH _ rfl)

theorem cut_of_suffix {input rest : Input} (suffix : rest.chars <:+ input.chars) :
    input.Cut (Rows.consumed input rest) rest := by
  obtain ⟨taken, split⟩ := suffix
  rw [Rows.consumed_of_append split.symm]
  exact .of_append split.symm

/-- Whenever a grammar matches, its text is cut between two characters into what was read and the
rest: along every evaluation, for the parser of every grammar in every environment, and for the
parsers of all shapes of a document. -/
theorem match_cuts_text :
    (∀ {scope : List Type} {α : Type} (grammar : Grammar scope α) (bindings : Bindings scope)
      (input rest : Input) (value : α),
      Evaluates grammar bindings input (some (value, rest)) →
        input.Cut (Rows.consumed input rest) rest) ∧
      (∀ {scope : List Type} {α : Type} (grammar : Grammar scope α)
        (environment : Environment scope) (input rest : Input) (value : α),
        (grammar.parser environment).run input = some (value, rest) →
          input.Cut (Rows.consumed input rest) rest) ∧
      ∀ (shape : Rows.Shape) (input rest : Input) (rows : List (List shape.Cell)),
        shape.rows.run input = some (rows, rest) → input.Cut (Rows.consumed input rest) rest := by
  refine ⟨?_, ?_, ?_⟩
  · intro scope α grammar bindings input rest value evaluated
    exact cut_of_suffix (evaluated.suffix _ rfl)
  · intro scope α grammar environment input rest value ran
    exact cut_of_suffix ((grammar.parser environment).run_suffix ran)
  · intro shape input rest rows ran
    exact cut_of_suffix (shape.rows.run_suffix ran)

/-- Characters of two bytes are read as a whole, and a line that does not fit is not read at all. -/
theorem match_cuts_text_wide :
    (Input.ofString "éa").Cut (Rows.consumed (Input.ofString "éa") (Input.ofString "a"))
      (Input.ofString "a") ∧
      (Input.ofString "éé").Cut (Rows.consumed (Input.ofString "éé") (Input.ofString ""))
        (Input.ofString "") ∧
      (Input.ofString "1\né").Cut (Rows.consumed (Input.ofString "1\né") (Input.ofString "é"))
        (Input.ofString "é") := by
  have itemEvaluated : Evaluates (.primitive .item) .empty (Input.ofString "éa")
      (some ('é', Input.ofString "a")) :=
    .primitive (by decide +kernel)
  have manyRead : ((Grammar.many (.primitive .item)).parser Environment.empty).run
      (Input.ofString "éé") = some (['é', 'é'], Input.ofString "") := by
    decide +kernel
  have rowsRead : (Rows.Shape.rows .ints).run (Input.ofString "1\né") =
      some ([[1]], Input.ofString "é") := by
    decide +kernel
  refine ⟨match_cuts_text.1 _ _ _ _ _ itemEvaluated, ?_, ?_⟩
  · exact match_cuts_text.2.1 _ _ _ _ _ manyRead
  · exact match_cuts_text.2.2 .ints _ _ _ rowsRead

end PuzzleKit.Grammar
