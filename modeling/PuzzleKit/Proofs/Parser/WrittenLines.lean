import PuzzleKit.Proofs.Parser.Lines

/-!
# Lines that are read as they were written

If a parser reads back what was written for a single value, as long as the line ends behind it,
then reading line by line gives back whole lists of values. The newline behind the last of them may
be missing.
-/

set_option autoImplicit false

namespace PuzzleKit.Parser

variable {ι α : Type}

/-- A line for every item; the last one ends with the text, or with a newline too. -/
def writeLines (write : ι → List Char) (finalNewline : Bool) (items : List ι) : List Char :=
  if finalNewline then items.flatMap fun item => write item ++ ['\n']
  else ['\n'].intercalate (items.map write)

/-- What is written for an item is read as its value at the end of a line. -/
def ReadsBack (parser : Parser α) (write : ι → List Char) (value : ι → α) : Prop :=
  ∀ ⦃item : ι⦄ ⦃rest : List Char⦄, Text.AtLineEnd rest →
    parser.run (Input.ofChars (write item ++ rest)) = some (value item, Input.ofChars rest)

section

variable {parser : Parser α} {write : ι → List Char} {value : ι → α}

theorem ReadsBack.run_line (reads : ReadsBack parser write value) (item : ι) (rest : List Char) :
    (parser.seqLeft endOfLine).run (Input.ofChars (write item ++ '\n' :: rest)) =
      some (value item, Input.ofChars rest) :=
  run_line_eq_some_iff.mpr ⟨_, reads (.inr ⟨rest, rfl⟩), .inl rfl⟩

theorem ReadsBack.run_last (reads : ReadsBack parser write value) (item : ι) :
    (parser.seqLeft endOfLine).run (Input.ofChars (write item)) =
      some (value item, Input.ofChars []) := by
  have read : parser.run (Input.ofChars (write item ++ [])) =
      some (value item, Input.ofChars []) := reads (.inl rfl)
  rw [List.append_nil] at read
  exact run_line_eq_some_iff.mpr ⟨_, read, .inr ⟨rfl, rfl⟩⟩

theorem ReadsBack.repeats_cons (reads : ReadsBack parser write value) (item : ι)
    {values : List α} {rest : List Char}
    (others : Repeats (parser.seqLeft endOfLine) (Input.ofChars rest) values (Input.ofChars [])) :
    Repeats (parser.seqLeft endOfLine) (Input.ofChars (write item ++ '\n' :: rest))
      (value item :: values) (Input.ofChars []) := by
  refine .step (reads.run_line item rest) ?_ others
  simp only [Input.length_ofChars, List.length_append, List.length_cons]
  omega

theorem ReadsBack.repeats_terminated (reads : ReadsBack parser write value) (items : List ι) :
    Repeats (parser.seqLeft endOfLine)
      (Input.ofChars (items.flatMap fun item => write item ++ ['\n'])) (items.map value)
      (Input.ofChars []) := by
  induction items with
  | nil => exact repeats_nil _
  | cons item items ih =>
      rw [List.flatMap_cons, List.append_assoc, List.map_cons]
      exact reads.repeats_cons item ih

theorem ReadsBack.repeats_unterminated (reads : ReadsBack parser write value)
    (filled : ∀ item, write item ≠ []) (items : List ι) :
    Repeats (parser.seqLeft endOfLine) (Input.ofChars (['\n'].intercalate (items.map write)))
      (items.map value) (Input.ofChars []) := by
  induction items with
  | nil => exact repeats_nil _
  | cons item items ih =>
      cases items with
      | nil =>
          rw [List.map_singleton, List.map_singleton, List.intercalate_singleton]
          exact .step (reads.run_last item) (List.length_pos_iff.mpr (filled item)) (repeats_nil _)
      | cons next items =>
          rw [List.map_cons, List.map_cons, List.intercalate_cons_cons, List.append_assoc]
          exact reads.repeats_cons item ih

/-- What is written line by line is read line by line, up to its end. -/
theorem ReadsBack.run_lines (reads : ReadsBack parser write value)
    (filled : ∀ item, write item ≠ []) (finalNewline : Bool) (items : List ι) :
    parser.lines.run (Input.ofChars (writeLines write finalNewline items)) =
      some (items.map value, Input.ofChars []) := by
  apply run_many_eq_some_iff.mpr
  cases finalNewline with
  | true => exact reads.repeats_terminated items
  | false => exact reads.repeats_unterminated filled items

end

end PuzzleKit.Parser
