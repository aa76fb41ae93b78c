import PuzzleKit.Command.Run
import PuzzleKit.Proofs.Rows.Document

/-!
# What a run reports

The lines of a file's document decide how a run on the file ends: if all of them are of the shape
that is asked for, the run writes the rows and succeeds, and else it names and quotes the first
other line. The records that it leaves in the log follow from the lines as well.
-/

set_option autoImplicit false

namespace PuzzleKit.Command

variable {shape : Rows.Shape} {text : List Char}

/-! ## Records -/

/-- Behind the last line the line parser matches once more, the empty text. -/
theorem isSome_run_line_nil (shape : Rows.Shape) :
    ((shape.line.seqLeft Parser.endOfLine).run (Input.ofChars [])).isSome = true := by
  obtain ⟨cells, written⟩ : ∃ cells, shape.IsLine [] cells := by
    cases shape with
    | grid => exact ⟨[], List.not_mem_nil, rfl⟩
    | _ => exact ⟨[], .blank (by simp)⟩
  rw [(shape.line_reads.run_accepted written).1]
  rfl

theorem rowRecords_of_accepted (accepted : ∀ line ∈ Text.lines text, line ∈ shape.lineLanguage) :
    rowRecords shape (Input.ofChars text) =
      [.emptyMatch (Text.lines text).length, .rowsRead] := by
  obtain ⟨rows, rest, ran, read⟩ := shape.line_reads.run_lines text
  obtain ⟨others, written⟩ := Rows.Shape.forall_mem_lineLanguage_iff.mp accepted
  obtain ⟨rfl, rfl⟩ := (shape.line_reads.forall₂_iff read others).mp written
  obtain ⟨again, matched⟩ := Option.isSome_iff_exists.mp (isSome_run_line_nil shape)
  have rowsRan : shape.rows.run (Input.ofChars text) = some (others, Input.ofChars []) := ran
  simp only [rowRecords, rowsRan, matched, written.length_eq]

theorem rowRecords_of_refused
    (refused : ∃ line ∈ Text.lines text, line ∉ shape.lineLanguage) :
    rowRecords shape (Input.ofChars text) = [.rowsRead] := by
  obtain ⟨before, bad, after, ending, rows, _, split, _, outside, _, ends, ran, _⟩ :=
    Rows.Shape.exists_first_refused refused
  have single : '\n' ∉ bad := Text.not_mem_newline_of_mem_lines (by rw [split]; simp)
  have stopped := shape.line_reads.run_refused single
    (fun cells written => outside (Rows.Shape.mem_lineLanguage_iff.mpr ⟨cells, written⟩)) ends
  simp only [rowRecords, ran, stopped]

/-! ## Runs -/

section Runs

variable {setting : Setting} {arguments : List String} {request : Request} {contents : String}

theorem Setting.run_of_request (asked : readArguments arguments = .ok request)
    (found : setting.files request.file = .ok contents.toUTF8) :
    setting.run arguments = (request.read (documentInput contents)).outcome setting.log := by
  simp only [run, account, asked, Request.answer, found, decode_toUTF8]

/-- A file whose lines are all of the shape is written as JSON, and nothing else is reported. -/
theorem Setting.run_accepted (asked : readArguments arguments = .ok request)
    (found : setting.files request.file = .ok contents.toUTF8)
    (accepted : ∀ line ∈ Text.lines (documentInput contents).chars,
      line ∈ request.shape.lineLanguage) :
    ∃ json,
      Rows.jsonText request.shape request.pretty (documentInput contents) = .ok json ∧
      setting.run arguments =
        ⟨0, json ++ "\n", setting.log.text
          [.textRead (documentInput contents).toString.utf8ByteSize request.file,
            .emptyMatch (Text.lines (documentInput contents).chars).length, .rowsRead]⟩ := by
  obtain ⟨json, written⟩ := Rows.Shape.exists_jsonText accepted request.pretty
  have records := rowRecords_of_accepted accepted
  rw [Input.ofChars_chars] at written records
  refine ⟨json, written, ?_⟩
  simp only [Setting.run_of_request asked found, Request.read, written, records, Account.outcome,
    String.append_empty]

/-- A file with a line of another form is not written. The report names the first such line by its
number and quotes it, without a carriage return that its end may have. -/
theorem Setting.run_refused (asked : readArguments arguments = .ok request)
    (found : setting.files request.file = .ok contents.toUTF8)
    (refused : ∃ line ∈ Text.lines (documentInput contents).chars,
      line ∉ request.shape.lineLanguage) :
    ∃ before bad after shown written,
      Text.lines (documentInput contents).chars = before ++ bad :: after ∧
      (∀ line ∈ before, line ∈ request.shape.lineLanguage) ∧ bad ∉ request.shape.lineLanguage ∧
      (shown = bad ∨ shown = Text.withoutReturn bad) ∧ Text.IsQuoted shown written ∧
      setting.run arguments =
        ⟨1, "", setting.log.text
          [.textRead (documentInput contents).toString.utf8ByteSize request.file, .rowsRead] ++
          ("Error: " ++ ("Could not read " ++ request.file ++ " as " ++ request.shape.title) ++
            "\n\nCaused by:\n    " ++ ("unexpected input on line " ++
              toString (before.length + 1) ++ ": " ++ String.ofList written) ++ "\n")⟩ := by
  obtain ⟨before, bad, after, ending, rows, shown, split, good, outside, _, _, _, _, _, whole,
    fails⟩ := Rows.Shape.exists_first_refused refused
  obtain ⟨written, quoted, message⟩ :=
    Rows.ReadError.message_unexpectedInput (before.length + 1) shown
  have records := rowRecords_of_refused refused
  rw [Input.ofChars_chars] at fails records
  refine ⟨before, bad, after, shown, written, split, good, outside, ?_, quoted, ?_⟩
  · rw [whole]
    split
    · exact .inl rfl
    · exact .inr rfl
  · simp only [Setting.run_of_request asked found, Request.read, fails, records, Account.outcome,
      Account.ofFailure, Failure.report, errorReport, message]

/-- A run on a file that can be read succeeds exactly if all lines of the file are of the shape. -/
theorem Setting.exitCode_eq_zero_iff (asked : readArguments arguments = .ok request)
    (found : setting.files request.file = .ok contents.toUTF8) :
    (setting.run arguments).exitCode = 0 ↔
      ∀ line ∈ Text.lines (documentInput contents).chars, line ∈ request.shape.lineLanguage := by
  constructor
  · intro zero
    by_contra refused
    simp only [not_forall, exists_prop] at refused
    obtain ⟨_, _, _, _, _, _, _, _, _, _, ran⟩ := Setting.run_refused asked found refused
    rw [ran] at zero
    have distinct : (1 : UInt8) ≠ 0 := by decide
    exact absurd zero distinct
  · intro accepted
    obtain ⟨_, _, ran⟩ := Setting.run_accepted asked found accepted
    rw [ran]

example : run ["--pretty", "in"] ⟨[("in", "1, 2".toUTF8)]⟩ =
    ⟨0, "[\n  [\n    1,\n    2\n  ]\n]\n", ""⟩ := by
  decide +kernel

end Runs

end PuzzleKit.Command
