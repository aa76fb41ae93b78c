import Mathlib.Data.List.Forall2
import PuzzleKit.Proofs.Rows.LineReader
import PuzzleKit.Proofs.Text.Quoted
import PuzzleKit.Rows.Document

/-!
# Which documents are read

A document is read line by line until a line is not of the shape's form. Either all of it is read,
or the rest begins with the first line of another form, however much of that line could be read.
From this follow the exact set of texts that are accepted and the line that an error names.
-/

set_option autoImplicit false

namespace PuzzleKit.Rows

variable {α : Type}

def Shape.IsLine : (shape : Shape) → List Char → List shape.Cell → Prop
  | ints => IsRow IsInteger
  | doubles => IsRow IsDouble
  | bools => IsRow IsBoolean
  | words => IsRow IsWord
  | grid => fun text cells => '\n' ∉ text ∧ cells = text

def Shape.lineLanguage : Shape → Language Char
  | ints => rowLanguage (tokenLanguage IsInteger)
  | doubles => rowLanguage (tokenLanguage IsDouble)
  | bools => rowLanguage (tokenLanguage IsBoolean)
  | words => rowLanguage (tokenLanguage IsWord)
  | grid => {text | '\n' ∉ text}

theorem Shape.mem_lineLanguage_iff {shape : Shape} {text : List Char} :
    text ∈ shape.lineLanguage ↔ ∃ cells, shape.IsLine text cells := by
  cases shape with
  | grid => exact ⟨fun single => ⟨text, single, rfl⟩, fun ⟨_, single, _⟩ => single⟩
  | _ => exact mem_rowLanguage_iff

theorem cells_reads : LineReader cells (Shape.IsLine .grid) where
  single written := written.1
  reads {text rest value} written ends := by
    obtain ⟨single, rfl⟩ := written
    have within : ∀ char ∈ value, (char != '\n') = true := by
      intro char member
      simpa using fun equal : char = '\n' => single (equal ▸ member)
    have after : (value ++ rest).dropWhile (· != '\n') = rest :=
      dropWhile_atLineEnd rfl within ends
    have front := (value ++ rest).takeWhile_append_dropWhile (p := (· != '\n'))
    rw [after] at front
    rw [cells, Parser.run_many_satisfy, Input.chars_ofChars, after, List.append_cancel_right front]
  sound {input rest value} found := by
    rw [cells, Parser.run_many_satisfy] at found
    cases found
    refine ⟨_, ⟨?_, rfl⟩, List.takeWhile_append_dropWhile.symm⟩
    intro member
    exact absurd (List.all_eq_true.mp List.all_takeWhile '\n' member) (by decide)

/-- The line parser of every shape reads exactly the lines of the shape. -/
theorem Shape.line_reads : (shape : Shape) → LineReader shape.line shape.IsLine
  | ints => integer_reads.row
  | doubles => double_reads.row
  | bools => boolean_reads.row
  | words => word_reads.row
  | grid => cells_reads

/-! ## Line by line -/

/-- How reading a text line by line ends: all lines are read, or the rest begins with the first
line that is not of the form. -/
inductive ReadLines (IsLine : List Char → α → Prop) (text : List Char) :
    List α → List Char → Prop where
  | complete {rows : List α} :
      List.Forall₂ IsLine (Text.lines text) rows → ReadLines IsLine text rows []
  | stopped {before after : List (List Char)} {bad ending : List Char} {rows : List α} :
      Text.lines text = before ++ bad :: after → List.Forall₂ IsLine before rows →
      (∀ value, ¬ IsLine bad value) → bad ++ ending ≠ [] → Text.AtLineEnd ending →
      text = before.flatMap (· ++ ['\n']) ++ (bad ++ ending) →
      ReadLines IsLine text rows (bad ++ ending)

section Lines

variable {line : Parser α} {IsLine : List Char → α → Prop}

/-- A line of another form is given back whole: nothing of it is read together with a line end. -/
theorem LineReader.run_refused (reader : LineReader line IsLine) {text rest : List Char}
    (single : '\n' ∉ text) (refused : ∀ value, ¬ IsLine text value) (ends : Text.AtLineEnd rest) :
    (line.seqLeft Parser.endOfLine).run (Input.ofChars (text ++ rest)) = none := by
  cases ran : (line.seqLeft Parser.endOfLine).run (Input.ofChars (text ++ rest)) with
  | none => rfl
  | some outcome =>
      obtain ⟨value, final⟩ := outcome
      obtain ⟨middle, _, read, ended⟩ := Parser.run_seqLeft_eq_some_iff.mp ran
      obtain ⟨other, written, front⟩ := reader.sound read
      have middleEnds : Text.AtLineEnd middle.chars := by
        rcases Parser.run_endOfLine_eq_some_iff.mp ended with newline | ⟨empty, _⟩
        · exact .inr ⟨final.chars, newline⟩
        · exact .inl empty
      have same : text = other :=
        Text.line_eq_of_append_eq single (reader.single written) ends middleEnds front
      exact absurd (same ▸ written) (refused value)

theorem LineReader.run_accepted (reader : LineReader line IsLine) {text : List Char} {value : α}
    (written : IsLine text value) :
    (line.seqLeft Parser.endOfLine).run (Input.ofChars text) = some (value, Input.ofChars []) ∧
      ∀ rest, (line.seqLeft Parser.endOfLine).run (Input.ofChars (text ++ '\n' :: rest)) =
        some (value, Input.ofChars rest) := by
  simp only [Parser.run_seqLeft_eq_some_iff]
  constructor
  · have read := reader.reads written (.inl rfl)
    rw [List.append_nil] at read
    exact ⟨_, (), read, Parser.run_endOfLine_eq_some_iff.mpr (.inr ⟨rfl, rfl⟩)⟩
  · intro rest
    exact ⟨_, (), reader.reads written (.inr ⟨rest, rfl⟩),
      Parser.run_endOfLine_eq_some_iff.mpr (.inl rfl)⟩

theorem LineReader.repeats (reader : LineReader line IsLine) (text : List Char) :
    ∃ rows rest, Parser.Repeats (line.seqLeft Parser.endOfLine) (Input.ofChars text) rows
      (Input.ofChars rest) ∧ ReadLines IsLine text rows rest := by
  induction text using Text.line_induction with
  | nil => exact ⟨[], [], Parser.repeats_nil _, .complete .nil⟩
  | unterminated text single filled =>
      by_cases accepted : ∃ value, IsLine text value
      · obtain ⟨value, written⟩ := accepted
        refine ⟨[value], [], .step (reader.run_accepted written).1 ?_ (Parser.repeats_nil _),
          .complete ?_⟩
        · exact List.length_pos_iff.mpr filled
        · rw [Text.lines_unterminated single filled]
          exact .cons written .nil
      · have refused := not_exists.mp accepted
        have stop := Parser.repeats_of_eq_none (reader.run_refused single refused (.inl rfl))
        have split : Text.lines text = [] ++ text :: [] := Text.lines_unterminated single filled
        exact ⟨[], text ++ [], by simpa using stop,
          .stopped split .nil refused (by simpa using filled) (.inl rfl) (by simp)⟩
  | terminated text rest single ih =>
      by_cases accepted : ∃ value, IsLine text value
      · obtain ⟨value, written⟩ := accepted
        obtain ⟨rows, final, repeated, read⟩ := ih
        refine ⟨value :: rows, final, .step ((reader.run_accepted written).2 rest) ?_ repeated, ?_⟩
        · simp only [Input.length_ofChars, List.length_append, List.length_cons]
          omega
        · cases read with
          | complete all =>
              refine .complete ?_
              rw [Text.lines_terminated single]
              exact .cons written all
          | @stopped before after bad ending _ split good refused filled ends front =>
              have longer : Text.lines (text ++ '\n' :: rest) =
                  (text :: before) ++ bad :: after := by
                rw [Text.lines_terminated single, split, List.cons_append]
              exact .stopped longer (.cons written good) refused filled ends (by simp [← front])
      · have refused := not_exists.mp accepted
        have ends : Text.AtLineEnd ('\n' :: rest) := .inr ⟨rest, rfl⟩
        have split : Text.lines (text ++ '\n' :: rest) = [] ++ text :: Text.lines rest :=
          Text.lines_terminated single rest
        exact ⟨[], _, Parser.repeats_of_eq_none (reader.run_refused single refused ends),
          .stopped split .nil refused (by simp) ends rfl⟩

theorem LineReader.run_lines (reader : LineReader line IsLine) (text : List Char) :
    ∃ rows rest, (Parser.lines line).run (Input.ofChars text) = some (rows, Input.ofChars rest) ∧
      ReadLines IsLine text rows rest := by
  obtain ⟨rows, rest, repeated, read⟩ := reader.repeats text
  exact ⟨rows, rest, Parser.run_many_eq_some_iff.mpr repeated, read⟩

/-- A line has at most one value. -/
theorem LineReader.value_unique (reader : LineReader line IsLine) {text : List Char}
    {left right : α} (leftWritten : IsLine text left) (rightWritten : IsLine text right) :
    left = right := by
  have same := (reader.run_accepted leftWritten).1.symm.trans (reader.run_accepted rightWritten).1
  cases same
  rfl

theorem forall_mem_exists_iff {texts : List (List Char)} :
    (∀ text ∈ texts, ∃ value, IsLine text value) ↔ ∃ values, List.Forall₂ IsLine texts values := by
  induction texts with
  | nil => exact ⟨fun _ => ⟨[], .nil⟩, fun _ _ member => by cases member⟩
  | cons text texts ih =>
      rw [List.forall_mem_cons, ih]
      constructor
      · intro parts
        obtain ⟨⟨value, written⟩, values, others⟩ := parts
        exact ⟨value :: values, .cons written others⟩
      · intro parts
        obtain ⟨_, written⟩ := parts
        cases written with
        | cons first others => exact ⟨⟨_, first⟩, _, others⟩

/-- A text is read to its end exactly if all of its lines are of the form. -/
theorem LineReader.forall₂_iff (reader : LineReader line IsLine) {text : List Char}
    {rows : List α} {rest : List Char} (read : ReadLines IsLine text rows rest)
    (others : List α) :
    List.Forall₂ IsLine (Text.lines text) others ↔ rest = [] ∧ others = rows := by
  have unique : Relator.RightUnique IsLine := fun _ _ _ left right => reader.value_unique left right
  cases read with
  | complete all =>
      constructor
      · exact fun written => ⟨rfl, List.right_unique_forall₂' unique written all⟩
      · intro parts
        obtain ⟨_, rfl⟩ := parts
        exact all
  | @stopped before after bad ending _ split _ refused filled =>
      constructor
      · intro written
        have member : bad ∈ Text.lines text := by simp [split]
        obtain ⟨value, badWritten⟩ := forall_mem_exists_iff.mpr ⟨others, written⟩ bad member
        exact absurd badWritten (refused value)
      · exact fun ⟨empty, _⟩ => absurd empty filled

end Lines

theorem Shape.forall_mem_lineLanguage_iff {shape : Shape} {texts : List (List Char)} :
    (∀ text ∈ texts, text ∈ shape.lineLanguage) ↔
      ∃ rows, List.Forall₂ shape.IsLine texts rows := by
  simp only [mem_lineLanguage_iff]
  exact forall_mem_exists_iff

/-! ## Documents -/

theorem jsonText_eq_of_run {shape : Shape} {input rest : Input} {rows : List (List shape.Cell)}
    (pretty : Bool) (ran : shape.rows.run input = some (rows, rest)) :
    (rest.chars = [] → ∃ json, jsonText shape pretty input = .ok json) ∧
      (rest.chars ≠ [] → jsonText shape pretty input = .error (leftOver input rest)) := by
  simp only [jsonText, readAll, ran, Input.isEmpty, List.isEmpty_iff]
  constructor
  · intro empty
    rw [if_pos empty]
    exact ⟨_, rfl⟩
  · intro filled
    rw [if_neg filled]

/-- Lines that were read are in front of the rest, and there are as many newlines as lines. -/
theorem leftOver_eq {before : List (List Char)} {rest quoted : List Char}
    (single : ∀ line ∈ before, '\n' ∉ line) (shown : Text.firstLine? rest = some quoted) :
    leftOver (Input.ofChars (before.flatMap (· ++ ['\n']) ++ rest)) (Input.ofChars rest) =
      .unexpectedInput (before.length + 1) quoted := by
  have front : consumed (Input.ofChars (before.flatMap (· ++ ['\n']) ++ rest))
      (Input.ofChars rest) = before.flatMap (· ++ ['\n']) :=
    consumed_of_append rfl
  simp only [leftOver, front, Text.newlineCount_terminated single, Input.chars_ofChars, shown,
    Option.getD_some]

theorem Shape.exists_jsonText {shape : Shape} {text : List Char}
    (accepted : ∀ line ∈ Text.lines text, line ∈ shape.lineLanguage) (pretty : Bool) :
    ∃ json, jsonText shape pretty (Input.ofChars text) = .ok json := by
  obtain ⟨rows, rest, ran, read⟩ := shape.line_reads.run_lines text
  obtain ⟨others, written⟩ := Shape.forall_mem_lineLanguage_iff.mp accepted
  have complete := ((shape.line_reads.forall₂_iff read others).mp written).1
  exact (jsonText_eq_of_run pretty ran).1 complete

/-! ## Errors -/

/-- The message of an error shows the number of the line in decimal and its text between quotes. -/
theorem ReadError.message_unexpectedInput (line : Nat) (text : List Char) :
    ∃ written, Text.IsQuoted text written ∧ (unexpectedInput line text).message =
      "unexpected input on line " ++ toString line ++ ": " ++ String.ofList written := by
  refine ⟨Text.quoted text, Text.isQuoted_iff.mpr rfl, ?_⟩
  rw [Nat.toString_eq_repr, Nat.repr_eq_ofList_toDigits]
  rfl

/-- Reading stops in front of the first line of another form, whatever of it could be read. -/
theorem Shape.exists_first_refused {shape : Shape} {text : List Char}
    (refused : ∃ line ∈ Text.lines text, line ∉ shape.lineLanguage) :
    ∃ before bad after ending rows quoted,
      Text.lines text = before ++ bad :: after ∧
      (∀ line ∈ before, line ∈ shape.lineLanguage) ∧ bad ∉ shape.lineLanguage ∧
      text = before.flatMap (· ++ ['\n']) ++ (bad ++ ending) ∧ Text.AtLineEnd ending ∧
      shape.rows.run (Input.ofChars text) = some (rows, Input.ofChars (bad ++ ending)) ∧
      List.Forall₂ shape.IsLine before rows ∧
      Text.firstLine? (bad ++ ending) = some quoted ∧
      quoted = (if ending = [] then bad else Text.withoutReturn bad) ∧
      ∀ pretty, jsonText shape pretty (Input.ofChars text) =
        .error (.unexpectedInput (before.length + 1) quoted) := by
  obtain ⟨line, member, outside⟩ := refused
  obtain ⟨rows, rest, ran, read⟩ := shape.line_reads.run_lines text
  cases read with
  | complete all =>
      exact absurd (Shape.forall_mem_lineLanguage_iff.mpr ⟨rows, all⟩ line member) outside
  | @stopped before after bad ending _ split good refused filled ends front =>
      have single : ∀ line ∈ before ++ bad :: after, '\n' ∉ line :=
        fun line member => Text.not_mem_newline_of_mem_lines (split ▸ member)
      have badSingle : '\n' ∉ bad := single bad (by simp)
      have shown : Text.firstLine? (bad ++ ending) =
          some (if ending = [] then bad else Text.withoutReturn bad) := by
        rcases ends with rfl | ⟨more, rfl⟩
        · rw [List.append_nil] at filled ⊢
          exact Text.firstLine?_unterminated badSingle filled
        · exact Text.firstLine?_terminated badSingle more
      refine ⟨before, bad, after, ending, rows, _, split,
        Shape.forall_mem_lineLanguage_iff.mpr ⟨rows, good⟩, ?_, front, ends, ran, good, shown,
        rfl, ?_⟩
      · exact fun inside => not_exists.mpr refused (Shape.mem_lineLanguage_iff.mp inside)
      · intro pretty
        rw [(jsonText_eq_of_run pretty ran).2 filled, front]
        exact congrArg Except.error
          (leftOver_eq (fun line member => single line (List.mem_append_left _ member)) shown)

/-- A text with a line of another form is reported by the first such line: by its number, and by
all of it, whatever could be read of it. The message shows both. Texts for a grid have no such
line. -/
theorem jsonText_reports_first_refused :
    (∀ (shape : Shape) (pretty : Bool) (text : List Char),
      (∃ line ∈ Text.lines text, line ∉ shape.lineLanguage) →
      ∃ before bad after ending rows quoted,
        Text.lines text = before ++ bad :: after ∧
        (∀ line ∈ before, line ∈ shape.lineLanguage) ∧ bad ∉ shape.lineLanguage ∧
        text = before.flatMap (· ++ ['\n']) ++ (bad ++ ending) ∧ Text.AtLineEnd ending ∧
        shape.rows.run (Input.ofChars text) = some (rows, Input.ofChars (bad ++ ending)) ∧
        List.Forall₂ shape.IsLine before rows ∧
        Text.firstLine? (bad ++ ending) = some quoted ∧
        quoted = (if ending = [] then bad else Text.withoutReturn bad) ∧
        jsonText shape pretty (Input.ofChars text) =
          .error (.unexpectedInput (before.length + 1) quoted) ∧
        ∃ written, Text.IsQuoted quoted written ∧
          (ReadError.unexpectedInput (before.length + 1) quoted).message =
            "unexpected input on line " ++ toString (before.length + 1) ++ ": " ++
              String.ofList written) ∧
      ∀ (pretty : Bool) (text : List Char),
        ∃ json, jsonText .grid pretty (Input.ofChars text) = .ok json := by
  constructor
  · intro shape pretty text refused
    obtain ⟨before, bad, after, ending, rows, quoted, split, good, outside, front, ends, ran, read,
      shown, whole, fails⟩ := Shape.exists_first_refused refused
    exact ⟨before, bad, after, ending, rows, quoted, split, good, outside, front, ends, ran, read,
      shown, whole, fails pretty, ReadError.message_unexpectedInput _ _⟩
  · intro pretty text
    exact Shape.exists_jsonText (fun _ => Text.not_mem_newline_of_mem_lines) pretty

/-- An empty line is a row, so the second of two lines is the one that is reported. -/
theorem jsonText_reports_second_line :
    (∃ line ∈ Text.lines "\n5 x".toList, line ∉ Shape.lineLanguage .ints) ∧
      jsonText .ints false (Input.ofChars "\n5 x".toList) =
        .error (.unexpectedInput 2 "5 x".toList) ∧
      (ReadError.unexpectedInput 2 "5 x".toList).message =
        "unexpected input on line 2: \"5 x\"" := by
  have linesEq : Text.lines "\n5 x".toList = [[], "5 x".toList] := by decide
  have blank : [] ∈ Shape.lineLanguage .ints :=
    Shape.mem_lineLanguage_iff.mpr ⟨[], .blank (by simp)⟩
  have outside : "5 x".toList ∉ Shape.lineLanguage .ints := by
    intro inside
    obtain ⟨cells, written⟩ := Shape.mem_lineLanguage_iff.mp inside
    have accepted := ((Shape.line_reads .ints).run_accepted written).1
    have rejected : ((Shape.line .ints).seqLeft Parser.endOfLine).run
        (Input.ofChars "5 x".toList) = none := by decide +kernel
    cases rejected.symm.trans accepted
  have refused : ∃ line ∈ Text.lines "\n5 x".toList, line ∉ Shape.lineLanguage .ints :=
    ⟨"5 x".toList, by rw [linesEq]; exact List.mem_cons_of_mem _ List.mem_cons_self, outside⟩
  obtain ⟨before, bad, after, ending, _, _, split, accepted, badOutside, front, _, _, _, _, rfl,
    fails, written, quoted, message⟩ :=
      jsonText_reports_first_refused.1 .ints false "\n5 x".toList refused
  rw [linesEq] at split
  cases before with
  | nil =>
      cases split
      exact absurd blank badOutside
  | cons first others =>
      obtain ⟨rfl, split⟩ := List.cons.inj split
      cases others with
      | nil =>
          cases split
          have endingNil : ending = [] := by simpa using front
          have writtenEq : written = "\"5 x\"".toList := by
            rw [Text.isQuoted_iff.mp quoted, endingNil]
            decide +kernel
          simp only [endingNil, ↓reduceIte] at fails message
          exact ⟨refused, fails, message.trans (by rw [writtenEq]; decide +kernel)⟩
      | cons second others =>
          have tail := (List.cons.inj split).2
          cases others <;> cases tail

end PuzzleKit.Rows
