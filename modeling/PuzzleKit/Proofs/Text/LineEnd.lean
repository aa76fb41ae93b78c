import PuzzleKit.Text.LineEnd

/-!
# Line ends made alike

A text whose lines end in a newline, with or without a carriage return before it, has the same
lines once its line ends are made alike. Nothing but the line ends is changed: a carriage return
inside of a line or at the end of the text is kept.
-/

set_option autoImplicit false

namespace PuzzleKit.Text

inductive LineEnd where
  | newline
  | returnNewline
deriving DecidableEq, Repr

def LineEnd.chars : LineEnd → List Char
  | newline => ['\n']
  | returnNewline => ['\r', '\n']

/-- Lines with an end each, and the text after the last line end. -/
def writeLines (lines : List (List Char × LineEnd)) (last : List Char) : List Char :=
  lines.flatMap (fun line => line.1 ++ line.2.chars) ++ last

/-! ## One character at a time -/

theorem unifyLineEndsAfter_append (before front text : List Char) :
    unifyLineEndsAfter (before ++ front) text =
      front.reverse ++ unifyLineEndsAfter before text := by
  fun_induction unifyLineEndsAfter before text with
  | case1 before => simp [unifyLineEndsAfter]
  | case2 before rest ih => rw [unifyLineEndsAfter, ← ih, List.cons_append]
  | case3 before char rest noEnd ih =>
      rw [unifyLineEndsAfter.eq_3 _ _ _ noEnd, ← ih, List.cons_append]

@[simp]
theorem unifyLineEnds_nil : unifyLineEnds [] = [] := rfl

theorem unifyLineEnds_return_newline (rest : List Char) :
    unifyLineEnds ('\r' :: '\n' :: rest) = '\n' :: unifyLineEnds rest :=
  unifyLineEndsAfter_append [] ['\n'] rest

theorem unifyLineEnds_cons {char : Char} {rest : List Char}
    (noEnd : char = '\r' → rest.head? ≠ some '\n') :
    unifyLineEnds (char :: rest) = char :: unifyLineEnds rest := by
  rw [unifyLineEnds, unifyLineEndsAfter.eq_3]
  · exact unifyLineEndsAfter_append [] [char] rest
  · rintro more rfl rfl
    exact noEnd rfl rfl

/-! ## One line at a time -/

/-- Text without a newline is kept, unless it ends in a carriage return that a newline follows. -/
theorem unifyLineEnds_append {line rest : List Char} (single : '\n' ∉ line)
    (noEnd : line.getLast? = some '\r' → rest.head? ≠ some '\n') :
    unifyLineEnds (line ++ rest) = line ++ unifyLineEnds rest := by
  induction line with
  | nil => rfl
  | cons char line ih =>
      rw [List.mem_cons, not_or] at single
      cases line with
      | nil =>
          refine unifyLineEnds_cons fun isReturn => noEnd ?_
          rw [isReturn, List.getLast?_singleton]
      | cons next line =>
          rw [List.getLast?_cons_cons] at noEnd
          have kept : unifyLineEnds (char :: (next :: line ++ rest)) =
              char :: unifyLineEnds (next :: line ++ rest) := by
            refine unifyLineEnds_cons fun _ newline => single.2 ?_
            have nextEq : next = '\n' := Option.some.inj newline
            exact nextEq ▸ List.mem_cons_self
          exact kept.trans (congrArg (char :: ·) (ih single.2 noEnd))

theorem unifyLineEnds_line {line : List Char} (single : '\n' ∉ line)
    (plain : line.getLast? ≠ some '\r') (ending : LineEnd) (rest : List Char) :
    unifyLineEnds (line ++ ending.chars ++ rest) = line ++ '\n' :: unifyLineEnds rest := by
  rw [List.append_assoc, unifyLineEnds_append single fun isReturn => absurd isReturn plain]
  cases ending with
  | newline => exact congrArg (line ++ ·) (unifyLineEnds_cons (by simp))
  | returnNewline => exact congrArg (line ++ ·) (unifyLineEnds_return_newline rest)

/-- Which of the two line ends a line has is all that is forgotten. -/
theorem unifyLineEnds_writeLines {lines : List (List Char × LineEnd)} {last : List Char}
    (plain : ∀ line ∈ lines.map Prod.fst, '\n' ∉ line ∧ line.getLast? ≠ some '\r')
    (single : '\n' ∉ last) :
    unifyLineEnds (writeLines lines last) =
      (lines.map Prod.fst).flatMap (· ++ ['\n']) ++ last := by
  induction lines with
  | nil =>
      have kept : unifyLineEnds (last ++ []) = last ++ unifyLineEnds [] :=
        unifyLineEnds_append single (by simp)
      simpa [writeLines] using kept
  | cons line lines ih =>
      obtain ⟨text, ending⟩ := line
      rw [List.map_cons, List.forall_mem_cons] at plain
      have first := unifyLineEnds_line plain.1.1 plain.1.2 ending (writeLines lines last)
      rw [ih plain.2] at first
      simpa [writeLines] using first

end PuzzleKit.Text
