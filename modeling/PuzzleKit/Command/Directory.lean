/-!
# Files

A run asks for a file by its path and is given bytes or an error. Where the files of a working
directory are all that there is, a path is followed step by step, from the root or from the working
directory, as the operating system does it; so a step through a file fails, even one that stays
where it is. Links, permissions and limits on the length of names are left out of directories;
`Files` may have them.
-/

set_option autoImplicit false

namespace PuzzleKit.Command

inductive FileError where
  | notFound
  | isDirectory
  | notADirectory
  | notText
  | other (message : String)
deriving DecidableEq, Repr

def FileError.message : FileError → String
  | notFound => "No such file or directory (os error 2)"
  | isDirectory => "Is a directory (os error 21)"
  | notADirectory => "Not a directory (os error 20)"
  | notText => "stream did not contain valid UTF-8"
  | other message => message

/-- What a run is given for the paths that it may ask for. -/
abbrev Files := String → Except FileError ByteArray

def decode : Except FileError ByteArray → Except FileError String
  | .error error => .error error
  | .ok bytes =>
      match String.fromUTF8? bytes with
      | some text => .ok text
      | none => .error .notText

@[simp]
theorem decode_toUTF8 (text : String) : decode (.ok text.toUTF8) = .ok text := by
  have read : String.fromUTF8? text.toUTF8 = some text := dif_pos text.isValidUTF8
  simp only [decode, read]

/-! ## Following a path -/

/-- The names between the slashes of a path. A slash at either end, and two in a row, give an empty
name. -/
def pathSteps : List Char → List (List Char)
  | [] => [[]]
  | char :: path =>
      if char = '/' then
        [] :: pathSteps path
      else
        match pathSteps path with
        | [] => [[char]]
        | name :: names => (char :: name) :: names

inductive Place where
  | file (bytes : ByteArray)
  /-- The directory that the names lead to from the root. -/
  | directory (names : List (List Char))

/-- The files below a working directory, by their paths from there. -/
structure Directory where
  files : List (String × ByteArray)

namespace Directory

/-- What the names lead to from the root: a file, or a directory on the way to the working directory
or to a file. -/
def find (directory : Directory) (location names : List (List Char)) : Except FileError Place :=
  match directory.files.find? fun file => location ++ pathSteps file.1.toList == names with
  | some file => .ok (.file file.2)
  | none =>
      if names.isPrefixOf location ||
          directory.files.any fun file => names.isPrefixOf (location ++ pathSteps file.1.toList) then
        .ok (.directory names)
      else
        .error .notFound

/-- Goes on by one name. An empty name and a single dot stay where they are, and so do two dots at
the root. -/
def enter (directory : Directory) (location : List (List Char)) :
    Place → List Char → Except FileError Place
  | .file _, _ => .error .notADirectory
  | .directory names, name =>
      if name ∈ [[], ['.']] then .ok (.directory names)
      else if name = ['.', '.'] then .ok (.directory names.dropLast)
      else directory.find location (names ++ [name])

/-- The place of a path. The path with no characters leads nowhere. -/
def place (directory : Directory) (location : List (List Char)) (path : List Char) :
    Except FileError Place :=
  match path with
  | [] => .error .notFound
  | first :: _ =>
      (pathSteps path).foldlM (directory.enter location)
        (.directory (if first = '/' then [] else location))

/-- The contents of files, with the names that lead from the root to the working directory. -/
def contents (directory : Directory) (location : List (List Char)) : Files := fun path =>
  match directory.place location path.toList with
  | .error error => .error error
  | .ok (.file bytes) => .ok bytes
  | .ok (.directory _) => .error .isDirectory

end Directory

end PuzzleKit.Command
