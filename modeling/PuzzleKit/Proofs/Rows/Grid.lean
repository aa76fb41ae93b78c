import PuzzleKit.Proofs.Rows.Document

/-!
# Grids

A grid keeps every character of its text but the newlines, and the newlines are kept by where the
rows end. Only the very last of them may be missing in the text without a difference for the rows.
-/

set_option autoImplicit false

namespace PuzzleKit.Rows

/-- Every text is a grid, and the rows are its lines. -/
theorem run_grid (text : List Char) :
    (Shape.rows .grid).run (Input.ofChars text) = some (Text.lines text, Input.ofChars []) := by
  obtain ⟨rows, rest, ran, read⟩ := (Shape.line_reads .grid).run_lines text
  have written : List.Forall₂ (Shape.IsLine .grid) (Text.lines text) (Text.lines text) :=
    List.forall₂_same.mpr fun line member => ⟨Text.not_mem_newline_of_mem_lines member, rfl⟩
  obtain ⟨rfl, same⟩ := ((Shape.line_reads .grid).forall₂_iff read _).mp written
  exact same ▸ ran

/-- A grid is read to its end, row by row, and the rows written down again are the text with the
newline that its last line may lack. So two texts have the same rows exactly if they differ in no
more than that newline. -/
theorem grid_lossless (text : List Char) :
    (Shape.rows .grid).run (Input.ofChars text) = some (Text.lines text, Input.ofChars []) ∧
      (Text.lines text).flatMap (· ++ ['\n']) =
        (if text = [] ∨ text.getLast? = some '\n' then text else text ++ ['\n']) ∧
      ∀ other, (Shape.rows .grid).parse (Input.ofChars other) =
          (Shape.rows .grid).parse (Input.ofChars text) ↔
        Text.completeLastLine other = Text.completeLastLine text := by
  refine ⟨run_grid text, Text.flatMap_lines text, fun other => ?_⟩
  simp only [Parser.parse, run_grid, Option.map_some, Option.some.injEq]
  exact Text.lines_eq_lines_iff

end PuzzleKit.Rows
