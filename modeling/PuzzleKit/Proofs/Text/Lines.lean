import PuzzleKit.Text.LineEnd

/-!
# The lines of a text

A text is cut into lines at its newlines. What follows the last newline is a line only if it is not
empty. Everything about lines is shown by going through a text line by line.
-/

set_option autoImplicit false

namespace PuzzleKit.Text

/-- The pieces of a text between its newlines, an empty last piece left out. -/
def lines (text : List Char) : List (List Char) :=
  let pieces := text.splitOn '\n'
  if pieces.getLast? = some [] then pieces.dropLast else pieces

@[simp]
theorem lines_nil : lines [] = [] := rfl

theorem lines_unterminated {line : List Char} (single : '\n' ∉ line) (filled : line ≠ []) :
    lines line = [line] := by
  simp [lines, List.splitOn_eq_singleton single, filled]

theorem lines_terminated {line : List Char} (single : '\n' ∉ line) (rest : List Char) :
    lines (line ++ '\n' :: rest) = line :: lines rest := by
  have piecesNeNil : rest.splitOn '\n' ≠ [] := List.splitOn_ne_nil _ _
  simp only [lines, List.splitOn_append_cons_self_of_not_mem single,
    List.getLast?_cons_of_ne_nil piecesNeNil]
  split
  · rw [List.dropLast_cons_of_ne_nil piecesNeNil]
  · rfl

/-- Every text is empty, or a single line without an end, or a line with its end and more text. -/
theorem line_induction {motive : List Char → Prop} (nil : motive [])
    (unterminated : ∀ line, '\n' ∉ line → line ≠ [] → motive line)
    (terminated : ∀ line rest, '\n' ∉ line → motive rest → motive (line ++ '\n' :: rest))
    (text : List Char) : motive text := by
  generalize size : text.length = length
  induction length using Nat.strongRecOn generalizing text with
  | ind length ih =>
      by_cases broken : '\n' ∈ text
      · obtain ⟨line, rest, rfl, single⟩ := List.eq_append_cons_of_mem broken
        refine terminated line rest single (ih rest.length ?_ rest rfl)
        simp only [List.length_append, List.length_cons] at size
        omega
      · by_cases filled : text = []
        · exact filled ▸ nil
        · exact unterminated text broken filled

theorem not_mem_newline_of_mem_lines {text line : List Char} (member : line ∈ lines text) :
    '\n' ∉ line := by
  induction text using line_induction with
  | nil => simp at member
  | unterminated only single filled =>
      rw [lines_unterminated single filled, List.mem_singleton] at member
      exact member ▸ single
  | terminated first rest single ih =>
      rw [lines_terminated single, List.mem_cons] at member
      rcases member with rfl | member
      · exact single
      · exact ih member

def AtLineEnd (rest : List Char) : Prop :=
  rest = [] ∨ ∃ more, rest = '\n' :: more

theorem takeWhile_line {line rest : List Char} (single : '\n' ∉ line) (ends : AtLineEnd rest) :
    (line ++ rest).takeWhile (· ≠ '\n') = line := by
  have within : ∀ char ∈ line, decide (char ≠ '\n') = true := by
    intro char member
    exact decide_eq_true fun equal => single (equal ▸ member)
  rw [List.takeWhile_append_of_pos within]
  rcases ends with rfl | ⟨more, rfl⟩ <;> simp

/-- Two readings of the front of a text as a line that ends there agree. -/
theorem line_eq_of_append_eq {left right leftRest rightRest : List Char}
    (leftSingle : '\n' ∉ left) (rightSingle : '\n' ∉ right) (leftEnds : AtLineEnd leftRest)
    (rightEnds : AtLineEnd rightRest) (same : left ++ leftRest = right ++ rightRest) :
    left = right := by
  rw [← takeWhile_line leftSingle leftEnds, same, takeWhile_line rightSingle rightEnds]

/-! ## Writing lines -/

/-- The text with the newline that its last line may lack. -/
def completeLastLine (text : List Char) : List Char :=
  if text = [] ∨ text.getLast? = some '\n' then text else text ++ ['\n']

theorem completeLastLine_unterminated {line : List Char} (single : '\n' ∉ line)
    (filled : line ≠ []) : completeLastLine line = line ++ ['\n'] := by
  have ended : line.getLast? ≠ some '\n' := fun last => single (List.mem_of_getLast? last)
  simp only [completeLastLine, filled, ended, or_self, ↓reduceIte]

theorem completeLastLine_terminated (line rest : List Char) :
    completeLastLine (line ++ '\n' :: rest) = line ++ '\n' :: completeLastLine rest := by
  cases rest with
  | nil => simp [completeLastLine]
  | cons char rest =>
      have last : (line ++ '\n' :: char :: rest).getLast? = (char :: rest).getLast? := by
        rw [List.getLast?_append, List.getLast?_cons_cons, List.getLast?_cons, Option.some_or]
      simp only [completeLastLine, last, List.append_eq_nil_iff, reduceCtorEq, and_false, false_or]
      split
      · rfl
      · rw [List.append_assoc, List.cons_append]

/-- Nothing but the last newline is lost when a text is cut into lines. -/
theorem flatMap_lines (text : List Char) :
    (lines text).flatMap (· ++ ['\n']) = completeLastLine text := by
  induction text using line_induction with
  | nil => rfl
  | unterminated line single filled =>
      rw [lines_unterminated single filled, completeLastLine_unterminated single filled,
        List.flatMap_singleton]
  | terminated line rest single ih =>
      rw [lines_terminated single, List.flatMap_cons, ih, completeLastLine_terminated,
        List.append_assoc, List.singleton_append]

theorem lines_flatMap {rows : List (List Char)} (single : ∀ line ∈ rows, '\n' ∉ line) :
    lines (rows.flatMap (· ++ ['\n'])) = rows := by
  induction rows with
  | nil => rfl
  | cons line rows ih =>
      have others := ih fun line member => single line (List.mem_cons_of_mem _ member)
      rw [List.flatMap_cons, List.append_assoc, List.singleton_append,
        lines_terminated (single line List.mem_cons_self), others]

theorem lines_eq_lines_iff {left right : List Char} :
    lines left = lines right ↔ completeLastLine left = completeLastLine right := by
  constructor
  · intro same
    rw [← flatMap_lines, same, flatMap_lines]
  · intro same
    have written (text : List Char) : lines ((lines text).flatMap (· ++ ['\n'])) = lines text :=
      lines_flatMap fun _ => not_mem_newline_of_mem_lines
    rw [← written left, flatMap_lines, same, ← flatMap_lines, written right]

/-! ## Showing a line -/

/-- A line as it is shown: one carriage return at its end is left out. -/
def withoutReturn (line : List Char) : List Char :=
  if line.getLast? = some '\r' then line.dropLast else line

theorem firstLine?_unterminated {line : List Char} (single : '\n' ∉ line) (filled : line ≠ []) :
    firstLine? line = some line := by
  have whole := takeWhile_line single (.inl rfl)
  rw [List.append_nil] at whole
  simp only [firstLine?, List.isEmpty_iff, filled, ↓reduceIte, firstLine, whole, Nat.lt_irrefl,
    false_and]

theorem firstLine?_terminated {line : List Char} (single : '\n' ∉ line) (rest : List Char) :
    firstLine? (line ++ '\n' :: rest) = some (withoutReturn line) := by
  have front := takeWhile_line single (.inr ⟨rest, rfl⟩)
  have shorter : line.length < (line ++ '\n' :: rest).length := by simp
  simp only [firstLine?, List.isEmpty_iff, List.append_eq_nil_iff, reduceCtorEq, and_false,
    ↓reduceIte, firstLine, front, shorter, true_and, withoutReturn]

theorem newlineCount_terminated {lines : List (List Char)}
    (single : ∀ line ∈ lines, '\n' ∉ line) :
    newlineCount (lines.flatMap (· ++ ['\n'])) = lines.length := by
  induction lines with
  | nil => rfl
  | cons line lines ih =>
      have first : line.count '\n' = 0 := List.count_eq_zero.mpr (single line List.mem_cons_self)
      have others := ih fun line member => single line (List.mem_cons_of_mem _ member)
      simp only [newlineCount] at others ⊢
      simp [List.count_append, first, others]

end PuzzleKit.Text
