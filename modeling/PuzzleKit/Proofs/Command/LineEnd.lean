import PuzzleKit.Command.Run
import PuzzleKit.Proofs.Command.Directory
import PuzzleKit.Proofs.Text.LineEnd

/-!
# Runs on files with other line ends

A run sees of a file only its document, the text with its line ends made alike. So no run can tell
two files with the same document apart: its exit code, its output, its report and its records are
the same, and what the log writes differs only as far as the clock does.
-/

set_option autoImplicit false

namespace PuzzleKit.Command

open Text (LineEnd writeLines)

/-- A request is answered alike when the file that it names has the same document. -/
theorem Request.answer_congr (request : Request) {leftFiles rightFiles : Files}
    (same : leftFiles request.file = rightFiles request.file ∨
      ∃ left right : String, leftFiles request.file = .ok left.toUTF8 ∧
        rightFiles request.file = .ok right.toUTF8 ∧ documentInput left = documentInput right) :
    request.answer leftFiles = request.answer rightFiles := by
  rcases same with same | ⟨left, right, leftFound, rightFound, same⟩
  · simp only [answer, same]
  · simp only [answer, leftFound, rightFound, decode_toUTF8, same]

/-- What a run comes to depends on no more of the files than their documents, and not on the log. -/
theorem Setting.account_congr {left right : Setting} (arguments : List String)
    (usageText : left.usageText = right.usageText)
    (same : ∀ path, left.files path = right.files path ∨
      ∃ leftText rightText : String, left.files path = .ok leftText.toUTF8 ∧
        right.files path = .ok rightText.toUTF8 ∧
        documentInput leftText = documentInput rightText) :
    left.account arguments = right.account arguments := by
  simp only [account, usageText]
  split
  · rfl
  · next request _ => exact request.answer_congr (same request.file)

/-- Two files with the same lines give the same outcome of every run, however each of their lines
is ended. If the runs have different logs, such as those of different clocks, then only what the
logs write for the same records differs. A report of a failure names the same line by the same
number. -/
theorem run_ignores_line_ends (arguments : List String)
    (usageText : List String → UsageError → String) (leftFiles rightFiles : Files)
    (left right : List (List Char × LineEnd)) (last : List Char)
    (same : left.map Prod.fst = right.map Prod.fst)
    (plain : ∀ line ∈ left.map Prod.fst, '\n' ∉ line ∧ line.getLast? ≠ some '\r')
    (single : '\n' ∉ last)
    (replaced : ∀ path, leftFiles path = rightFiles path ∨
      leftFiles path = .ok (String.ofList (writeLines left last)).toUTF8 ∧
        rightFiles path = .ok (String.ofList (writeLines right last)).toUTF8) :
    (∀ log, Setting.run ⟨leftFiles, log, usageText⟩ arguments =
        Setting.run ⟨rightFiles, log, usageText⟩ arguments) ∧
      (∃ exitCode stdout records report, ∀ log,
        Setting.run ⟨leftFiles, log, usageText⟩ arguments =
            ⟨exitCode, stdout, log.text records ++ report⟩ ∧
          Setting.run ⟨rightFiles, log, usageText⟩ arguments =
            ⟨exitCode, stdout, log.text records ++ report⟩) ∧
      ∀ shape pretty,
        Rows.jsonText shape pretty (documentInput (String.ofList (writeLines left last))) =
          Rows.jsonText shape pretty (documentInput (String.ofList (writeLines right last))) := by
  have document : documentInput (String.ofList (writeLines left last)) =
      documentInput (String.ofList (writeLines right last)) := by
    simp only [documentInput, String.toList_ofList]
    rw [Text.unifyLineEnds_writeLines plain single,
      Text.unifyLineEnds_writeLines (same ▸ plain) single, same]
  have account (log : Log) : Setting.account ⟨leftFiles, log, usageText⟩ arguments =
      Setting.account ⟨rightFiles, log, usageText⟩ arguments := by
    refine Setting.account_congr arguments rfl fun path => ?_
    rcases replaced path with untouched | ⟨leftFound, rightFound⟩
    · exact .inl untouched
    · exact .inr ⟨_, _, leftFound, rightFound, document⟩
  have outcome (log : Log) : Setting.run ⟨leftFiles, log, usageText⟩ arguments =
      Setting.run ⟨rightFiles, log, usageText⟩ arguments := by
    simp only [Setting.run, account]
  have written (log : Log) : Setting.run ⟨rightFiles, log, usageText⟩ arguments =
      (Setting.account ⟨rightFiles, .silent, usageText⟩ arguments).outcome log :=
    rfl
  refine ⟨outcome, ⟨_, _, _, _, fun log => ⟨(outcome log).trans (written log), written log⟩⟩, ?_⟩
  exact fun shape pretty => by rw [document]

/-- A root directory with one file, and a clock that gives reading the rows one and a half
microseconds. -/
def Setting.withInput (contents : String) : Setting where
  files := (Directory.around [] [] "in" contents.toUTF8).contents []
  log := .standard "2026-01-01T00:00:00Z " 1500
  usageText _ _ := ""

/-- The second line is refused in both files; the carriage returns inside of it and behind it are no
line ends. -/
theorem run_ignores_line_ends_mixed :
    (∀ line ∈ ["1 2".toList, "3 x\r y".toList], '\n' ∉ line ∧ line.getLast? ≠ some '\r') ∧
      '\n' ∉ "\r".toList ∧
      (Setting.withInput "1 2\r\n3 x\r y\n\r").run ["--pretty", "in"] =
        (Setting.withInput "1 2\n3 x\r y\r\n\r").run ["--pretty", "in"] ∧
      (Setting.withInput "1 2\n3 x\r y\r\n\r").run ["--pretty", "in"] =
        ⟨1, "", "[2026-01-01T00:00:00Z INFO  nibble] parsed input in 1.5µs\n" ++
          "Error: Could not read in as Ints\n\nCaused by:\n" ++
          "    unexpected input on line 2: \"3 x\\r y\"\n"⟩ := by
  have plain : ∀ line ∈ ["1 2".toList, "3 x\r y".toList],
      '\n' ∉ line ∧ line.getLast? ≠ some '\r' := by
    decide
  have single : '\n' ∉ "\r".toList := by decide
  have same := run_ignores_line_ends ["--pretty", "in"] (fun _ _ => "")
    (Setting.withInput "1 2\r\n3 x\r y\n\r").files
    (Setting.withInput "1 2\n3 x\r y\r\n\r").files
    [("1 2".toList, .returnNewline), ("3 x\r y".toList, .newline)]
    [("1 2".toList, .newline), ("3 x\r y".toList, .returnNewline)]
    "\r".toList rfl plain single ((Directory.around_replaces [] [] "in" _ _).contents [])
  exact ⟨plain, single, same.1 (.standard "2026-01-01T00:00:00Z " 1500), by decide +kernel⟩

end PuzzleKit.Command
