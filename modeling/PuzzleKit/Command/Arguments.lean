import PuzzleKit.Rows.Shape

/-!
# Command line arguments

Arguments are read from left to right: options by their long or short names, and one file. The
first argument that asks for help or for the version, or that is wrong, decides; what comes after
it is not looked at.
-/

set_option autoImplicit false

namespace PuzzleKit.Command

open Rows (Shape)

/-- What the arguments ask to be read, and how to write it. -/
structure Request where
  file : String
  shape : Shape
  pretty : Bool
deriving DecidableEq, Repr

/-- What is wrong with the arguments. How it is worded is not said here. -/
inductive UsageError where
  | unknownOption (name : String)
  | repeatedOption (name : String)
  | missingValue (name : String)
  | unwantedValue (name : String)
  | unknownShape (value : String)
  | emptyFile
  | extraFile (name : String)
deriving DecidableEq, Repr

/-- Why reading the arguments stopped before their end. -/
inductive Stop where
  | help
  | version
  | wrong (error : UsageError)
deriving DecidableEq, Repr

inductive Switch where
  | shape
  | pretty
  | help
  | version
deriving DecidableEq, Repr

namespace Switch

def ofLong? (name : String) : Option Switch :=
  if name = "shape" then some shape
  else if name = "pretty" then some pretty
  else if name = "help" then some help
  else if name = "version" then some version
  else none

def ofShort? (name : Char) : Option Switch :=
  if name = 's' then some shape
  else if name = 'p' then some pretty
  else if name = 'h' then some help
  else if name = 'V' then some version
  else none

def title : Switch → String
  | shape => "--shape"
  | pretty => "--pretty"
  | help => "--help"
  | version => "--version"

end Switch

structure Progress where
  file : Option String
  shape : Option Shape
  pretty : Bool
  /-- The next argument is the value of the shape option. -/
  awaitingShape : Bool
  /-- Every argument from here on is a file. -/
  onlyFiles : Bool
deriving DecidableEq, Repr

namespace Progress

def initial : Progress :=
  ⟨none, none, false, false, false⟩

def withShape (progress : Progress) (value : String) : Except Stop Progress :=
  match Shape.ofName? value with
  | some shape => .ok { progress with shape := some shape, awaitingShape := false }
  | none => .error (.wrong (.unknownShape value))

/-- Begins the shape option, which may be given once. Its value may be attached to it. -/
def beginShape (progress : Progress) (attached : Option String) : Except Stop Progress :=
  if progress.shape.isSome then
    .error (.wrong (.repeatedOption Switch.shape.title))
  else
    match attached with
    | some value => progress.withShape value
    | none => .ok { progress with awaitingShape := true }

def withSwitch (progress : Progress) : Switch → Except Stop Progress
  | .help => .error .help
  | .version => .error .version
  | .pretty =>
      if progress.pretty then
        .error (.wrong (.repeatedOption Switch.pretty.title))
      else
        .ok { progress with pretty := true }
  | .shape => progress.beginShape none

def withFile (progress : Progress) (name : String) : Except Stop Progress :=
  if progress.file.isSome then .error (.wrong (.extraFile name))
  else if name.isEmpty then .error (.wrong .emptyFile)
  else .ok { progress with file := some name }

def withLong (progress : Progress) (text : List Char) : Except Stop Progress :=
  let name := String.ofList (text.takeWhile (· ≠ '='))
  let attached :=
    match text.dropWhile (· ≠ '=') with
    | [] => none
    | _ :: value => some (String.ofList value)
  match Switch.ofLong? name, attached with
  | none, _ => .error (.wrong (.unknownOption ("--" ++ name)))
  | some .shape, attached => progress.beginShape attached
  | some switch, none => progress.withSwitch switch
  | some switch, some _ => .error (.wrong (.unwantedValue switch.title))

/-- Takes options by their short names, written one after the other. Whatever follows the shape
option is its value, an equals sign in front of it left out. -/
def withShorts (progress : Progress) : List Char → Except Stop Progress
  | [] => .ok progress
  | name :: rest =>
      match Switch.ofShort? name with
      | none => .error (.wrong (.unknownOption ("-" ++ String.singleton name)))
      | some .shape =>
          match rest with
          | [] => progress.beginShape none
          | '=' :: value => progress.beginShape (some (String.ofList value))
          | value => progress.beginShape (some (String.ofList value))
      | some switch =>
          match progress.withSwitch switch with
          | .error stop => .error stop
          | .ok progress => withShorts progress rest

/-- Takes one argument. An option where a value is awaited leaves the value missing. -/
def step (progress : Progress) (argument : String) : Except Stop Progress :=
  if progress.onlyFiles then
    progress.withFile argument
  else
    let missing : Except Stop Progress := .error (.wrong (.missingValue Switch.shape.title))
    match argument.toList with
    | ['-', '-'] =>
        if progress.awaitingShape then missing else .ok { progress with onlyFiles := true }
    | '-' :: '-' :: text => if progress.awaitingShape then missing else progress.withLong text
    | '-' :: name :: names =>
        if progress.awaitingShape then missing else progress.withShorts (name :: names)
    | _ =>
        if progress.awaitingShape then progress.withShape argument
        else progress.withFile argument

def finish (progress : Progress) : Except Stop Request :=
  if progress.awaitingShape then
    .error (.wrong (.missingValue Switch.shape.title))
  else
    .ok ⟨progress.file.getD "input.txt", progress.shape.getD .ints, progress.pretty⟩

end Progress

def readArguments (arguments : List String) : Except Stop Request :=
  match arguments.foldlM Progress.step Progress.initial with
  | .error stop => .error stop
  | .ok progress => progress.finish

end PuzzleKit.Command
