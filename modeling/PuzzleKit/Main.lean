import PuzzleKit.Command.Run

/-!
# The command line

Reads the file that the arguments ask for, and hands everything else to `PuzzleKit.Command`. The
log is the standard one without the time of day, and usage errors are told by the exit code alone.
-/

set_option autoImplicit false

namespace PuzzleKit.Command

/-- The number that the system has for an error, which comes with either sign. -/
def systemCode (code : UInt32) : UInt32 :=
  min code (0 - code)

def FileError.ofIO (error : IO.Error) : FileError :=
  match error with
  | .noFileOrDirectory .. => .notFound
  | .permissionDenied .. => .other "Permission denied (os error 13)"
  | .inappropriateType _ code _ =>
      if systemCode code = 21 then .isDirectory
      else if systemCode code = 20 then .notADirectory
      else .other (toString error)
  | _ => .other (toString error)

def fileBytes (path : String) : IO (Except FileError ByteArray) := do
  try
    return .ok (← IO.FS.readBinFile path)
  catch error =>
    return .error (.ofIO error)

/-- The bytes that a run with the arguments will ask for. Without a request it asks for none. -/
def requestedBytes (arguments : List String) : IO (Except FileError ByteArray) :=
  match readArguments arguments with
  | .error _ => pure (.error .notFound)
  | .ok request => fileBytes request.file

end PuzzleKit.Command

open PuzzleKit.Command in
def main (arguments : List String) : IO UInt32 := do
  let bytes ← requestedBytes arguments
  let started ← IO.monoNanosNow
  let account ← IO.lazyPure fun _ =>
    Setting.account ⟨fun _ => bytes, .silent, fun _ _ => ""⟩ arguments
  let ended ← IO.monoNanosNow
  let outcome := account.outcome (.standard "" (ended - started))
  IO.print outcome.stdout
  IO.eprint outcome.stderr
  return outcome.exitCode.toUInt32
