import PuzzleKit.Proofs.Parser.Consumption
import PuzzleKit.Proofs.Text.Lines

/-!
# Reading line by line

A line is read by any parser and the end of the line behind it. The empty end of a text counts as
the end of a line too, but reading it gets no further, so it adds no value. What is read line by line
therefore stops in front of a line, or behind the last one. If the parser keeps to its line, there
is one value for every line, and it is what the parser reads from the start of the line to its end.
-/

set_option autoImplicit false

namespace PuzzleKit.Parser

variable {α : Type} {parser : Parser α} {input rest : Input}

/-! ## One line -/

theorem run_line_eq_some_iff {value : α} :
    (parser.seqLeft endOfLine).run input = some (value, rest) ↔
      ∃ stop, parser.run input = some (value, stop) ∧
        (stop.chars = '\n' :: rest.chars ∨ stop.chars = [] ∧ rest = stop) := by
  rw [run_seqLeft_eq_some_iff]
  constructor
  · intro parts
    obtain ⟨stop, _, matched, ended⟩ := parts
    exact ⟨stop, matched, run_endOfLine_eq_some_iff.mp ended⟩
  · intro parts
    obtain ⟨stop, matched, ended⟩ := parts
    exact ⟨stop, (), matched, run_endOfLine_eq_some_iff.mpr ended⟩

/-- The parser never reads a newline. -/
def StaysInLine (parser : Parser α) : Prop :=
  ∀ ⦃input rest : Input⦄ ⦃value : α⦄ ⦃taken : List Char⦄,
    parser.run input = some (value, rest) → input.chars = taken ++ rest.chars → '\n' ∉ taken

theorem many_satisfy_staysInLine {accepts : Char → Bool} (refused : accepts '\n' = false) :
    StaysInLine (many (satisfy accepts)) := by
  intro input rest chars taken matched split member
  rw [run_many_satisfy] at matched
  cases matched
  have takenEq : taken = input.chars.takeWhile accepts := by
    have same := split.symm.trans (List.takeWhile_append_dropWhile (p := accepts)).symm
    exact List.append_cancel_right same
  rw [takenEq] at member
  have accepted := List.all_eq_true.mp List.all_takeWhile '\n' member
  exact Bool.false_ne_true (refused.symm.trans accepted)

/-! ## Line after line -/

/-- What is read line by line: lines with their newlines, and perhaps a last one that ends with the
text. -/
inductive TakesLines (parser : Parser α) : Input → List α → List Char → Input → Prop where
  | stop {input : Input} : TakesLines parser input [] [] input
  | terminated {input stop middle rest : Input} {value : α} {values : List α}
      {line following : List Char} :
      parser.run input = some (value, stop) → input.chars = line ++ stop.chars →
      stop.chars = '\n' :: middle.chars → TakesLines parser middle values following rest →
      TakesLines parser input (value :: values) (line ++ '\n' :: following) rest
  | unterminated {input stop : Input} {value : α} {line : List Char} :
      parser.run input = some (value, stop) → input.chars = line ++ stop.chars →
      stop.chars = [] → line ≠ [] → TakesLines parser input [value] line stop

theorem TakesLines.append_eq {values : List α} {taken : List Char}
    (lines : TakesLines parser input values taken rest) : taken ++ rest.chars = input.chars := by
  induction lines with
  | stop => rfl
  | terminated _ split newline _ ih => rw [split, newline, ← ih, List.append_assoc, List.cons_append]
  | unterminated _ split => exact split.symm

theorem Repeats.exists_takesLines {values : List α}
    (repeated : Repeats (parser.seqLeft endOfLine) input values rest) :
    ∃ taken, TakesLines parser input values taken rest := by
  induction repeated with
  | stop => exact ⟨[], .stop⟩
  | @step input middle rest value values matched shorter others ih =>
      obtain ⟨stop, first, ended⟩ := run_line_eq_some_iff.mp matched
      obtain ⟨line, split⟩ := parser.run_suffix first
      rcases ended with newline | ⟨empty, rfl⟩
      · obtain ⟨following, lines⟩ := ih
        exact ⟨_, .terminated first split.symm newline lines⟩
      · obtain rfl : values = [] := others.eq_nil_of_length_le (by simp [middle.length_eq, empty])
        have filled : line ≠ [] := by
          rintro rfl
          rw [middle.length_eq, input.length_eq, ← split] at shorter
          exact absurd shorter (Nat.lt_irrefl _)
        cases others with
        | stop => exact ⟨line, .unterminated first split.symm empty filled⟩

theorem TakesLines.betweenLines {values : List α} {taken : List Char}
    (lines : TakesLines parser input values taken rest) :
    taken = [] ∨ taken.getLast? = some '\n' ∨ rest.chars = [] := by
  induction lines with
  | stop => exact .inl rfl
  | @terminated _ _ _ _ _ _ line following _ _ _ _ ih =>
      rcases ih with rfl | last | whole
      · exact .inr (.inl List.getLast?_concat)
      · refine .inr (.inl ?_)
        rw [List.getLast?_append, List.getLast?_cons, last]
        rfl
      · exact .inr (.inr whole)
  | unterminated _ _ empty => exact .inr (.inr empty)

/-! ## The values of the lines -/

/-- The text from the start of a line on. -/
def lineStart (input : Input) (lines : List (List Char)) (index : Nat) : Input :=
  input.drop ((lines.take index).flatMap (· ++ ['\n'])).length

/-- The value is what the parser reads from the start of a line, and it stops where the line ends. -/
def ReadsLine (parser : Parser α) (input : Input) (lines : List (List Char)) (index : Nat)
    (value : α) : Prop :=
  ∃ line stop, lines[index]? = some line ∧
    (lineStart input lines index).chars = line ++ stop.chars ∧ Text.AtLineEnd stop.chars ∧
    parser.run (lineStart input lines index) = some (value, stop)

@[simp]
theorem lineStart_zero (input : Input) (lines : List (List Char)) :
    lineStart input lines 0 = input :=
  Input.ext rfl

theorem lineStart_succ {input middle : Input} {line : List Char}
    (split : input.chars = line ++ '\n' :: middle.chars) (lines : List (List Char))
    (index : Nat) :
    lineStart input (line :: lines) (index + 1) = lineStart middle lines index := by
  apply Input.ext
  have front : input.chars = (line ++ ['\n']) ++ middle.chars := by
    rw [split, List.append_assoc, List.singleton_append]
  simp only [lineStart, Input.chars_drop, List.take_succ_cons, List.flatMap_cons]
  rw [List.length_append, ← List.drop_drop, front, List.drop_left]

theorem ReadsLine.first {stop : Input} {value : α} {line : List Char}
    (matched : parser.run input = some (value, stop)) (split : input.chars = line ++ stop.chars)
    (ended : Text.AtLineEnd stop.chars) (lines : List (List Char)) :
    ReadsLine parser input (line :: lines) 0 value := by
  refine ⟨line, stop, rfl, ?_, ended, ?_⟩
  · rw [lineStart_zero, split]
  · rw [lineStart_zero, matched]

theorem ReadsLine.later {middle : Input} {value : α} {line : List Char} {lines : List (List Char)}
    {index : Nat} (split : input.chars = line ++ '\n' :: middle.chars)
    (reads : ReadsLine parser middle lines index value) :
    ReadsLine parser input (line :: lines) (index + 1) value := by
  rw [ReadsLine, lineStart_succ split]
  exact reads

theorem TakesLines.readsLine {values : List α} {taken : List Char} (stays : StaysInLine parser)
    (lines : TakesLines parser input values taken rest) :
    values.length = (Text.lines taken).length ∧
      ∀ (index : Nat) (inside : index < values.length),
        ReadsLine parser input (Text.lines taken) index values[index] := by
  induction lines with
  | stop => exact ⟨rfl, fun _ inside => nomatch inside⟩
  | terminated first split newline _ ih =>
      obtain ⟨count, each⟩ := ih
      rw [Text.lines_terminated (stays first split)]
      refine ⟨congrArg Nat.succ count, ?_⟩
      intro index inside
      cases index with
      | zero => exact .first first split (.inr ⟨_, newline⟩) _
      | succ index => exact .later (newline ▸ split) (each index (Nat.lt_of_succ_lt_succ inside))
  | unterminated first split empty filled =>
      rw [Text.lines_unterminated (stays first split) filled]
      refine ⟨rfl, ?_⟩
      intro index inside
      obtain rfl : index = 0 := Nat.lt_one_iff.mp inside
      exact .first first split (.inl empty) []

/-- What is read line by line is nothing, or lines up to a newline, or the whole text, and no
further line can be read behind it, unless without reading anything. If the parser never reads a
newline, there is one value for every line that was read; the empty end of the text is none. Every
value is what the parser reads from the start of its line, and it stops where that line ends. -/
theorem lines_stop_between_lines (parser : Parser α) (input : Input) :
    ∃ values taken rest, parser.lines.run input = some (values, rest) ∧
      input.chars = taken ++ rest.chars ∧
      (taken = [] ∨ taken.getLast? = some '\n' ∨ taken = input.chars) ∧
      ((parser.seqLeft endOfLine).run rest = none ∨
        ∃ value, (parser.seqLeft endOfLine).run rest = some (value, rest)) ∧
      (StaysInLine parser → values.length = (Text.lines taken).length ∧
        ∀ (index : Nat) (inside : index < values.length),
          ReadsLine parser input (Text.lines taken) index values[index]) := by
  obtain ⟨values, rest, repeated⟩ := exists_repeats (parser.seqLeft endOfLine) input
  obtain ⟨taken, lines⟩ := repeated.exists_takesLines
  have split := lines.append_eq
  refine ⟨values, taken, rest, run_many_eq_some_iff.mpr repeated, split.symm, ?_, ?_, ?_⟩
  · rcases lines.betweenLines with nothing | newline | whole
    · exact .inl nothing
    · exact .inr (.inl newline)
    · exact .inr (.inr (by rw [← split, whole, List.append_nil]))
  · cases ran : (parser.seqLeft endOfLine).run rest with
    | none => exact .inl rfl
    | some outcome =>
        obtain ⟨value, after⟩ := outcome
        obtain rfl : after = rest := repeated.ended.eq_of_run ran
        exact .inr ⟨value, rfl⟩
  · exact fun stays => lines.readsLine stays

/-- An empty line in the middle has a value, and a line at the end without its newline too. -/
theorem lines_stop_between_lines_letters :
    StaysInLine (satisfy (· ≠ '\n')).many ∧
      (satisfy (· ≠ '\n')).many.lines.run (Input.ofString "ab\n\nc") =
        some ([['a', 'b'], [], ['c']], Input.ofString "") ∧
      (Text.lines "ab\n\nc".toList).length = 3 ∧
      ReadsLine (satisfy (· ≠ '\n')).many (Input.ofString "ab\n\nc")
        (Text.lines "ab\n\nc".toList) 1 [] := by
  have stays : StaysInLine (satisfy (· ≠ '\n')).many := many_satisfy_staysInLine rfl
  have read : (satisfy (· ≠ '\n')).many.lines.run (Input.ofString "ab\n\nc") =
      some ([['a', 'b'], [], ['c']], Input.ofString "") := by
    decide +kernel
  obtain ⟨values, taken, rest, ran, split, _, _, within⟩ :=
    lines_stop_between_lines (satisfy (· ≠ '\n')).many (Input.ofString "ab\n\nc")
  obtain ⟨rfl, rfl⟩ := Prod.mk.inj (Option.some.inj (ran.symm.trans read))
  obtain rfl : taken = "ab\n\nc".toList := (List.append_nil taken).symm.trans split.symm
  obtain ⟨count, each⟩ := within stays
  exact ⟨stays, read, count.symm, each 1 (by decide)⟩

end PuzzleKit.Parser
