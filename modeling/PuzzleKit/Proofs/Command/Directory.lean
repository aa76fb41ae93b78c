import PuzzleKit.Command.Directory

/-!
# Following paths

A path is followed up to a slash first, and then from the place that was reached. So nothing is
found behind a file, and a step that stays where it is changes nothing behind a directory. The bytes
of a file are only seen at its own paths.
-/

set_option autoImplicit false

namespace PuzzleKit.Command

/-! ## Paths in two parts -/

theorem pathSteps_ne_nil (path : List Char) : pathSteps path ≠ [] := by
  fun_cases pathSteps path <;> exact List.cons_ne_nil _ _

theorem pathSteps_append (path more : List Char) :
    pathSteps (path ++ '/' :: more) = pathSteps path ++ pathSteps more := by
  induction path with
  | nil => rfl
  | cons char path ih =>
      simp only [List.cons_append, pathSteps, ih]
      split
      · rfl
      · obtain ⟨name, names, split⟩ := List.exists_cons_of_ne_nil (pathSteps_ne_nil path)
        simp only [split, List.cons_append]

namespace Directory

variable {directory : Directory} {location : List (List Char)} {path : List Char}

theorem place_append (filled : path ≠ []) (more : List Char) :
    directory.place location (path ++ '/' :: more) =
      directory.place location path >>= (pathSteps more).foldlM (directory.enter location) := by
  cases path with
  | nil => exact absurd rfl filled
  | cons first path =>
      have steps := pathSteps_append (first :: path) more
      simp only [List.cons_append] at steps
      simp only [List.cons_append, place, steps, List.foldlM_append]

theorem ne_nil_of_place {reached : Place} (found : directory.place location path = .ok reached) :
    path ≠ [] := by
  rintro rfl
  cases found

/-- Whatever is behind a slash, a path through a file leads nowhere. -/
theorem place_through_file {bytes : ByteArray}
    (found : directory.place location path = .ok (.file bytes)) (more : List Char) :
    directory.place location (path ++ '/' :: more) = .error .notADirectory := by
  obtain ⟨name, names, split⟩ := List.exists_cons_of_ne_nil (pathSteps_ne_nil more)
  rw [place_append (ne_nil_of_place found), found, split]
  rfl

section Within

variable {names : List (List Char)}

/-- Nothing changes behind a directory if a slash, or a slash and a dot, is written there. -/
theorem place_stays (found : directory.place location path = .ok (.directory names)) :
    directory.place location (path ++ ['/']) = .ok (.directory names) ∧
      directory.place location (path ++ ['/', '.']) = .ok (.directory names) := by
  rw [place_append (ne_nil_of_place found), place_append (ne_nil_of_place found), found]
  exact ⟨rfl, rfl⟩

/-- Two dots lead from a directory to the one that it lies in. -/
theorem place_back (found : directory.place location path = .ok (.directory names)) :
    directory.place location (path ++ ['/', '.', '.']) = .ok (.directory names.dropLast) := by
  rw [place_append (ne_nil_of_place found), found]
  rfl

end Within

example : ["in", "d/../in", "../w/in", "/w/in", "in/", "in/.", "d/", "..", "/in"].map (fun path =>
      match Directory.contents ⟨[("in", .empty), ("d/f", .empty)]⟩ [['w']] path with
      | .ok _ => none
      | .error error => some error) =
    [none, none, none, none, some .notADirectory, some .notADirectory, some .isDirectory,
      some .isDirectory, some .notFound] := by
  decide +kernel

end Directory

/-! ## One file replaced -/

/-- Two results of following a path that differ at most in the bytes of the file that is found. -/
def SameButBytes (left right : ByteArray) (first second : Except FileError Place) : Prop :=
  first = second ∨ first = .ok (.file left) ∧ second = .ok (.file right)

namespace Directory

/-- In the second directory some files have other bytes, the same for all of them. -/
def Replaces (left right : ByteArray) (first second : Directory) : Prop :=
  ∀ location names,
    SameButBytes left right (first.find location names) (second.find location names)

section Replaced

variable {left right : ByteArray} {first second : Directory}

theorem Replaces.enter (replaces : Replaces left right first second)
    (location : List (List Char)) (place : Place) (name : List Char) :
    SameButBytes left right (first.enter location place name)
      (second.enter location place name) := by
  cases place with
  | file => exact .inl rfl
  | directory names =>
      simp only [Directory.enter]
      split
      · exact .inl rfl
      · split
        · exact .inl rfl
        · exact replaces location (names ++ [name])

theorem Replaces.foldlM_enter (replaces : Replaces left right first second)
    (location names : List (List Char)) (place : Place) :
    SameButBytes left right (names.foldlM (first.enter location) place)
      (names.foldlM (second.enter location) place) := by
  induction names generalizing place with
  | nil => exact .inl rfl
  | cons name names ih =>
      simp only [List.foldlM_cons]
      rcases replaces.enter location place name with same | ⟨leftFound, rightFound⟩
      · rw [same]
        cases second.enter location place name with
        | error => exact .inl rfl
        | ok next => exact ih next
      · rw [leftFound, rightFound]
        cases names with
        | nil => exact .inr ⟨rfl, rfl⟩
        | cons => exact .inl rfl

theorem Replaces.place (replaces : Replaces left right first second)
    (location : List (List Char)) (path : List Char) :
    SameButBytes left right (first.place location path) (second.place location path) := by
  cases path with
  | nil => exact .inl rfl
  | cons => exact replaces.foldlM_enter location _ _

theorem Replaces.contents (replaces : Replaces left right first second)
    (location : List (List Char)) (path : String) :
    first.contents location path = second.contents location path ∨
      first.contents location path = .ok left ∧ second.contents location path = .ok right := by
  simp only [Directory.contents]
  rcases replaces.place location path.toList with same | ⟨leftFound, rightFound⟩
  · rw [same]
    exact .inl rfl
  · rw [leftFound, rightFound]
    exact .inr ⟨rfl, rfl⟩

end Replaced

/-- A directory with one file among others. -/
def around (before after : List (String × ByteArray)) (name : String) (bytes : ByteArray) :
    Directory :=
  ⟨before ++ (name, bytes) :: after⟩

theorem around_replaces (before after : List (String × ByteArray)) (name : String)
    (left right : ByteArray) :
    Replaces left right (around before after name left) (around before after name right) := by
  intro location names
  simp only [find, around, List.find?_append, List.find?_cons, List.any_append, List.any_cons]
  cases before.find? fun file => location ++ pathSteps file.1.toList == names with
  | some file => exact .inl rfl
  | none =>
      cases location ++ pathSteps name.toList == names with
      | true => exact .inr ⟨rfl, rfl⟩
      | false => exact .inl rfl

end Directory

end PuzzleKit.Command
