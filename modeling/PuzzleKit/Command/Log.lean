import PuzzleKit.Number.Decimal

/-!
# The log

A run leaves records of what it did: what it read, and that the rows were read. Which of them are
shown, and with what time of day, is up to the log of the run, of which nothing is assumed.
-/

set_option autoImplicit false

namespace PuzzleKit.Command

/-! ## Durations -/

/-- The digits of a fraction that counts units of `10 ^ -places`, without zeros at the end. -/
def fractionDigits (places count : Nat) : List Char :=
  let digits := Decimal.digits count
  let padded := List.replicate (places - digits.length) '0' ++ digits
  (padded.reverse.dropWhile (· == '0')).reverse

/-- A number of nanoseconds in a unit that has `10 ^ places` of them. -/
def durationIn (places nanoseconds : Nat) (unitName : String) : String :=
  let scale := Nat.pow 10 places
  let fraction := fractionDigits places (nanoseconds % scale)
  let behindPoint := if fraction.isEmpty then [] else '.' :: fraction
  String.ofList (Decimal.digits (nanoseconds / scale) ++ behindPoint) ++ unitName

/-- A duration in the largest unit that it reaches, with all of its digits. -/
def durationText (nanoseconds : Nat) : String :=
  if 1000000000 ≤ nanoseconds then durationIn 9 nanoseconds "s"
  else if 1000000 ≤ nanoseconds then durationIn 6 nanoseconds "ms"
  else if 1000 ≤ nanoseconds then durationIn 3 nanoseconds "µs"
  else durationIn 0 nanoseconds "ns"

example : [5, 1500, 20300000, 3000000000].map durationText = ["5ns", "1.5µs", "20.3ms", "3s"] := by
  decide +kernel

/-! ## Records -/

inductive LogLevel where
  | info
  | debug
deriving DecidableEq, Repr

inductive LogRecord where
  /-- A file was read; the bytes are those of its text with the line ends made alike. -/
  | textRead (bytes : Nat) (file : String)
  /-- A repetition ended at a match that read nothing. -/
  | emptyMatch (items : Nat)
  | rowsRead
deriving DecidableEq, Repr

namespace LogRecord

def level : LogRecord → LogLevel
  | textRead _ _ => .debug
  | emptyMatch _ => .debug
  | rowsRead => .info

/-- The part of the program that a record comes from. -/
def target : LogRecord → String
  | textRead _ _ => "nibble"
  | emptyMatch _ => "parsnip::combinators"
  | rowsRead => "nibble"

/-- The message of a record, given the nanoseconds that reading the rows took. -/
def message (elapsed : Nat) : LogRecord → String
  | textRead bytes file => "read " ++ String.ofList (Decimal.digits bytes) ++ " bytes from " ++ file
  | emptyMatch items =>
      "repetition stopped on an empty match after " ++ String.ofList (Decimal.digits items) ++
        " items"
  | rowsRead => "parsed input in " ++ durationText elapsed

end LogRecord

/-- Where the records of a run go. No two records of a run are the same, so the text of a record
may also hold the time when it was written. -/
structure Log where
  /-- What is written when the log is set up, such as a warning about its own settings. -/
  opening : String
  /-- The nanoseconds that reading the rows takes. -/
  elapsed : Nat
  /-- The text that is written for a level, a target and a message; nothing if it is not shown. -/
  write : LogLevel → String → String → String

namespace Log

/-- All that the log writes in a run with the given records. -/
def text (log : Log) (records : List LogRecord) : String :=
  log.opening ++ String.join (records.map fun record =>
    log.write record.level record.target (record.message log.elapsed))

def silent : Log where
  opening := ""
  elapsed := 0
  write _ _ _ := ""

/-- The log unless another is asked for: debugging records are left out, and the others stand on
a line of their own behind a heading, such as the time of day and a blank. -/
def standard (heading : String) (elapsed : Nat) : Log where
  opening := ""
  elapsed
  write
    | .debug, _, _ => ""
    | .info, target, message => "[" ++ heading ++ "INFO  " ++ target ++ "] " ++ message ++ "\n"

end Log

end PuzzleKit.Command
