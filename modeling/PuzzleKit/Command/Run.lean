import PuzzleKit.Command.Arguments
import PuzzleKit.Command.Directory
import PuzzleKit.Command.Log
import PuzzleKit.Rows.Document

/-!
# Running the command

A run reads the arguments, then a file, and writes either the rows of the file as JSON or a report
of what went wrong. The file comes from the setting of the run, and so do the log, with its clock,
and the wording of usage errors: a run writes what the log shows of its records in front of its
report.
-/

set_option autoImplicit false

namespace PuzzleKit.Command

structure Outcome where
  exitCode : UInt8
  stdout : String
  stderr : String
deriving DecidableEq, Repr

def shapeNames : String :=
  String.intercalate ", " (Rows.Shape.all.map Rows.Shape.name)

def helpText : String :=
  "Usage: nibble [OPTIONS] [FILE]\n\n" ++
  "Arguments:\n  [FILE]  \n\n" ++
  "Options:\n" ++
  "  -s, --shape <SHAPE>  [default: ints] [possible values: " ++ shapeNames ++ "]\n" ++
  "  -p, --pretty         \n" ++
  "  -h, --help           Print help\n" ++
  "  -V, --version        Print version\n"

def versionText : String :=
  "nibble 0.1.0\n"

def errorReport (context cause : String) : String :=
  "Error: " ++ context ++ "\n\nCaused by:\n    " ++ cause ++ "\n"

inductive Failure where
  | unreadable (file : String) (error : FileError)
  | illShaped (file : String) (shape : Rows.Shape) (error : Rows.ReadError)
deriving DecidableEq, Repr

def Failure.report : Failure → String
  | unreadable file error => errorReport ("File not found: " ++ file) error.message
  | illShaped file shape error =>
      errorReport ("Could not read " ++ file ++ " as " ++ shape.title) error.message

/-- The text of a file with its line ends made alike. -/
def documentInput (text : String) : Input :=
  Input.ofChars (Text.unifyLineEnds text.toList)

/-- What reading the rows of a document leaves in the log. Of the repetitions in a shape only that
of the lines can meet an empty match; all others read a character at every turn. -/
def rowRecords (shape : Rows.Shape) (input : Input) : List LogRecord :=
  match shape.rows.run input with
  | none => []
  | some (rows, rest) =>
      match (shape.line.seqLeft Parser.endOfLine).run rest with
      | none => [.rowsRead]
      | some _ => [.emptyMatch rows.length, .rowsRead]

/-- What a run comes to, apart from how its log is written. The report stands behind the log. -/
structure Account where
  exitCode : UInt8
  stdout : String
  records : List LogRecord
  report : String
deriving DecidableEq, Repr

namespace Account

def outcome (account : Account) (log : Log) : Outcome :=
  ⟨account.exitCode, account.stdout, log.text account.records ++ account.report⟩

def ofFailure (records : List LogRecord) (failure : Failure) : Account :=
  ⟨1, "", records, failure.report⟩

def ofStop (usageText : UsageError → String) : Stop → Account
  | .help => ⟨0, helpText, [], ""⟩
  | .version => ⟨0, versionText, [], ""⟩
  | .wrong error => ⟨2, "", [], usageText error⟩

end Account

/-- Reads the rows of a document that was found at the path of a request. -/
def Request.read (request : Request) (document : Input) : Account :=
  let records := .textRead document.toString.utf8ByteSize request.file ::
    rowRecords request.shape document
  match Rows.jsonText request.shape request.pretty document with
  | .error error => .ofFailure records (.illShaped request.file request.shape error)
  | .ok json => ⟨0, json ++ "\n", records, ""⟩

def Request.answer (request : Request) (files : Files) : Account :=
  match decode (files request.file) with
  | .error error => .ofFailure [] (.unreadable request.file error)
  | .ok text => request.read (documentInput text)

/-- What surrounds a run: the files, the log, and the wording of what is wrong with arguments. -/
structure Setting where
  files : Files
  log : Log
  usageText : List String → UsageError → String

namespace Setting

def account (setting : Setting) (arguments : List String) : Account :=
  match readArguments arguments with
  | .error stop => .ofStop (setting.usageText arguments) stop
  | .ok request => request.answer setting.files

def run (setting : Setting) (arguments : List String) : Outcome :=
  (setting.account arguments).outcome setting.log

end Setting

/-- A run in a working directory below the root, with the log switched off and no text for usage
errors. -/
def run (arguments : List String) (directory : Directory) : Outcome :=
  Setting.run ⟨directory.contents ["work".toList], .silent, fun _ _ => ""⟩ arguments

end PuzzleKit.Command
