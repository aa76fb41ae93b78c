import PuzzleKit.Proofs.Json.Layout
import PuzzleKit.Proofs.Json.Reader
import PuzzleKit.Rows.Document

/-!
# Rows as JSON

The JSON that is written for the rows of a file stands for exactly these rows, whether it is pretty
or not. Doubles are left out: they are rounded when they are read, and infinities have no number.
-/

set_option autoImplicit false

namespace PuzzleKit.Rows

open PuzzleKit.Json (Data IsText Means MeanItems)

/-- What a cell stands for. A character of a grid is a string of its own. -/
def Shape.cellData : (shape : Shape) → shape ≠ .doubles → shape.Cell → Data
  | ints, _, cell => .number cell.toInt
  | bools, _, cell => .boolean cell
  | words, _, cell => .string cell
  | grid, _, cell => .string (String.singleton cell)
  | doubles, noDoubles, _ => absurd rfl noDoubles

def Shape.rowsData (shape : Shape) (noDoubles : shape ≠ .doubles)
    (rows : List (List shape.Cell)) : Data :=
  .array (rows.map fun row => .array (row.map (shape.cellData noDoubles)))

theorem Shape.means_cellJson (shape : Shape) (noDoubles : shape ≠ .doubles) (cell : shape.Cell) :
    Means (shape.cellJson cell) (shape.cellData noDoubles cell) := by
  cases shape with
  | ints => exact .integer _
  | bools => exact .boolean cell
  | words => exact .string cell
  | grid => exact .string _
  | doubles => exact absurd rfl noDoubles

theorem Shape.means_rowsJson (shape : Shape) (noDoubles : shape ≠ .doubles)
    (rows : List (List shape.Cell)) :
    Means (shape.rowsJson rows) (shape.rowsData noDoubles rows) :=
  .array (MeanItems.of_map
    (fun row => .array (MeanItems.of_map (shape.means_cellJson noDoubles) row)) rows)

theorem readAll_eq_ok_iff {α : Type} {parser : Parser α} {input : Input} {value : α} :
    readAll parser input = .ok value ↔ parser.run input = some (value, Input.ofChars []) := by
  unfold readAll
  cases ran : parser.run input with
  | none => simp
  | some result =>
      obtain ⟨found, rest⟩ := result
      by_cases empty : rest.isEmpty = true
      · have restEq : rest = Input.ofChars [] := Input.ext ((Input.isEmpty_iff rest).mp empty)
        simp [restEq, Input.isEmpty]
      · have restNe : rest ≠ Input.ofChars [] := by
          rintro rfl
          exact empty rfl
        simp [empty, restNe]

/-- A text that is accepted is written as JSON that stands for its rows and for nothing else. The
pretty text is the compact one with blanks and newlines between the values. -/
theorem jsonText_stands_for_rows {shape : Shape} (noDoubles : shape ≠ .doubles) {input : Input}
    (accepted : ∃ pretty json, jsonText shape pretty input = .ok json) :
    ∃ rows, shape.rows.run input = some (rows, Input.ofChars []) ∧
      (∀ pretty, ∃ json, jsonText shape pretty input = .ok json ∧
        ∀ data, IsText json.toList data ↔ data = shape.rowsData noDoubles rows) ∧
      ∃ compact indented, jsonText shape false input = .ok compact ∧
        jsonText shape true input = .ok indented ∧
        Json.withoutBreaks indented.toList = compact.toList := by
  obtain ⟨_, _, written⟩ := accepted
  unfold jsonText at written
  split at written
  · cases written
  · next rows read =>
      have means := shape.means_rowsJson noDoubles rows
      have writes (pretty : Bool) : jsonText shape pretty input = .ok (String.ofList
          (if pretty then (shape.rowsJson rows).pretty else (shape.rowsJson rows).compact)) := by
        simp only [jsonText, read]
      have stands (pretty : Bool) : IsText
          (if pretty then (shape.rowsJson rows).pretty else (shape.rowsJson rows).compact)
          (shape.rowsData noDoubles rows) := by
        cases pretty with
        | false => exact means.isText_compact
        | true => exact means.isText_pretty
      refine ⟨rows, readAll_eq_ok_iff.mp read, fun pretty => ⟨_, writes pretty, fun data => ?_⟩,
        _, _, writes false, writes true, ?_⟩
      · rw [String.toList_ofList]
        constructor
        · exact fun other => other.unique (stands pretty)
        · rintro rfl
          exact stands pretty
      · simpa using means.withoutBreaks_pretty

/-- Quotes, backslashes and controls are read back, and so is the row of an empty line. -/
theorem jsonText_stands_for_rows_escaped :
    (∃ pretty json, jsonText .words pretty (Input.ofString "a\"\\, \x01é\n\n") = .ok json) ∧
      ∀ data, IsText "[[\"a\\\"\\\\\",\"\\u0001é\"],[]]".toList data ↔
        data = .array [.array [.string "a\"\\", .string "\x01é"], .array []] := by
  have written : jsonText .words false (Input.ofString "a\"\\, \x01é\n\n") =
      .ok "[[\"a\\\"\\\\\",\"\\u0001é\"],[]]" := by decide +kernel
  have ran : (Shape.rows .words).run (Input.ofString "a\"\\, \x01é\n\n") =
      some ([["a\"\\", "\x01é"], []], Input.ofChars []) := by decide +kernel
  refine ⟨⟨_, _, written⟩, ?_⟩
  obtain ⟨rows, same, reads, _⟩ := jsonText_stands_for_rows (by decide) ⟨_, _, written⟩
  obtain ⟨json, again, stands⟩ := reads false
  cases same.symm.trans ran
  cases again.symm.trans written
  exact stands

end PuzzleKit.Rows
