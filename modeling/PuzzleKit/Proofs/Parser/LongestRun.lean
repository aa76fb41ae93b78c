import Mathlib.Algebra.Ring.Nat
import PuzzleKit.Proofs.Parser.Repeats
import PuzzleKit.Proofs.Text.Cut
import PuzzleKit.Rows.Row

/-!
# Longest runs of characters

White space, blanks, gaps, words and digits are all read in one way: as many characters of a class
as there are in front of the text. Which characters these are is stated without a parser, by the
lengths of the fronts of the text that lie in the class. Nothing is lost, because the run and the
text behind it make up the whole text again.
-/

set_option autoImplicit false

namespace PuzzleKit.Parser

/-! ## Runs in front of a text -/

/-- A text is cut behind the longest of its fronts of which all characters belong to a class. -/
structure LongestRun (belongs : Char → Prop) (input : Input) (run : List Char) (rest : Input) :
    Prop where
  split : input.chars = run ++ rest.chars
  belong : ∀ char ∈ run, belongs char
  longest : ∀ other, other <+: input.chars → (∀ char ∈ other, belongs char) →
    other.length ≤ run.length

section

variable {belongs : Char → Prop} {input rest after : Input} {run other : List Char}

theorem LongestRun.isPrefix (found : LongestRun belongs input run rest) : run <+: input.chars :=
  ⟨rest.chars, found.split.symm⟩

/-- Two longest runs are fronts of one text and equally long. -/
theorem LongestRun.unique (found : LongestRun belongs input run rest)
    (another : LongestRun belongs input other after) : run = other ∧ rest = after := by
  have runLe := another.longest run found.isPrefix found.belong
  have otherLe := found.longest other another.isPrefix another.belong
  have front := List.prefix_of_prefix_length_le found.isPrefix another.isPrefix runLe
  obtain rfl := front.eq_of_length_le otherLe
  exact ⟨rfl, Input.ext (List.append_cancel_left (found.split.symm.trans another.split))⟩

theorem LongestRun.iff_eq (found : LongestRun belongs input run rest) :
    LongestRun belongs input other after ↔ other = run ∧ after = rest := by
  constructor
  · exact fun another => another.unique found
  · intro same
    obtain ⟨rfl, rfl⟩ := same
    exact found

/-- A run is the longest one if it cannot be continued by a single character. -/
theorem longestRun_iff_stops :
    LongestRun belongs input run rest ↔
      input.chars = run ++ rest.chars ∧ (∀ char ∈ run, belongs char) ∧
        ∀ char ∈ rest.chars.head?, ¬ belongs char := by
  constructor
  · intro found
    refine ⟨found.split, found.belong, fun char member inside => ?_⟩
    obtain ⟨others, front⟩ := List.head?_eq_some_iff.mp member
    have continued : run ++ [char] <+: input.chars :=
      ⟨others, by rw [found.split, front, List.append_assoc, List.singleton_append]⟩
    have longer := found.longest _ continued fun next among => by
      rcases List.mem_append.mp among with before | last
      · exact found.belong next before
      · exact List.mem_singleton.mp last ▸ inside
    rw [List.length_append, List.length_singleton] at longer
    exact absurd longer (Nat.not_succ_le_self _)
  · intro parts
    obtain ⟨split, belong, stops⟩ := parts
    refine ⟨split, belong, fun other isFront inside => ?_⟩
    refine Nat.le_of_not_lt fun longer => ?_
    have front : run <+: other :=
      List.prefix_of_prefix_length_le ⟨_, split.symm⟩ isFront (Nat.le_of_lt longer)
    obtain ⟨more, rfl⟩ := front
    rw [split, List.prefix_append_right_inj] at isFront
    cases more with
    | nil => exact absurd longer (by simp)
    | cons char more =>
        obtain ⟨others, front⟩ := isFront
        exact stops char (by simp [← front]) (inside char (by simp))

theorem longestRun_takeWhile {accepts : Char → Bool}
    (acceptsIff : ∀ char, accepts char = true ↔ belongs char) (input : Input) :
    LongestRun belongs input (input.chars.takeWhile accepts)
      (Input.ofChars (input.chars.dropWhile accepts)) := by
  refine longestRun_iff_stops.mpr ⟨List.takeWhile_append_dropWhile.symm, ?_, ?_⟩
  · intro char member
    exact (acceptsIff char).mp (List.all_eq_true.mp List.all_takeWhile char member)
  · intro char member inside
    have refused := List.head?_dropWhile_not accepts input.chars
    rw [Input.chars_ofChars, Option.mem_def] at member
    rw [member] at refused
    exact absurd ((acceptsIff char).mpr inside) (by simp [refused])

theorem exists_longestRun (belongs : Char → Prop) [DecidablePred belongs] (input : Input) :
    ∃ run rest, LongestRun belongs input run rest :=
  ⟨_, _, longestRun_takeWhile (fun char => decide_eq_true_iff (p := belongs char)) input⟩

/-! ## Parsers that take the longest run -/

section

variable {accepts : Char → Bool}

theorem LongestRun.run_many (found : LongestRun belongs input run rest)
    (acceptsIff : ∀ char, accepts char = true ↔ belongs char) :
    (many (satisfy accepts)).run input = some (run, rest) := by
  obtain ⟨rfl, rfl⟩ := found.unique (longestRun_takeWhile acceptsIff input)
  exact run_many_satisfy accepts input

theorem LongestRun.run_many1 (found : LongestRun belongs input run rest)
    (acceptsIff : ∀ char, accepts char = true ↔ belongs char) :
    (many1 (satisfy accepts)).run input = if run = [] then none else some (run, rest) := by
  simp only [many1, filterMap, found.run_many acceptsIff, List.isEmpty_iff]
  by_cases empty : run = [] <;> simp only [empty, ↓reduceIte]

theorem LongestRun.run_map_many1 {α : Type} (found : LongestRun belongs input run rest)
    (acceptsIff : ∀ char, accepts char = true ↔ belongs char) (transform : List Char → α) :
    ((many1 (satisfy accepts)).map transform).run input =
      if run = [] then none else some (transform run, rest) := by
  simp only [map, found.run_many1 acceptsIff]
  by_cases empty : run = [] <;> simp only [empty, ↓reduceIte]

end

theorem LongestRun.run_whitespace (found : LongestRun (Text.isWhiteSpace · = true) input run rest) :
    whitespace.run input = some (String.ofList run, rest) :=
  run_map_of_eq_some (found.run_many fun _ => Iff.rfl) String.ofList

theorem LongestRun.run_blanks
    (found : LongestRun (fun char => char = ' ' ∨ char = '\t') input run rest) :
    Rows.blanks.run input = some ((), rest) :=
  run_map_of_eq_some (found.run_many fun char => by simp [Rows.isBlank]) _

theorem LongestRun.run_gap
    (found : LongestRun (fun char => char = ' ' ∨ char = '\t' ∨ char = ',') input run rest) :
    Rows.gap.run input = if run = [] then none else some ((), rest) :=
  found.run_map_many1 (fun char => by simp [Rows.isGapChar, Rows.isBlank, or_assoc]) _

theorem LongestRun.run_word
    (found : LongestRun (fun char => Text.isWhiteSpace char = false ∧ char ≠ ',') input run rest) :
    Rows.word.run input = if run = [] then none else some (String.ofList run, rest) :=
  found.run_map_many1 (fun char => by simp [Rows.isWordChar]) String.ofList

theorem LongestRun.run_digits
    (found : LongestRun (fun char => '0' ≤ char ∧ char ≤ '9') input run rest) :
    digits.run input = if run = [] then none else some (run, rest) :=
  found.run_many1 fun char => by simp [Char.isDigit, Char.le_def, UInt32.le_iff_toNat_le]

theorem LongestRun.run_natural
    (found : LongestRun (fun char => '0' ≤ char ∧ char ≤ '9') input run rest) :
    natural.run input =
      if run ≠ [] ∧ Decimal.value run < 2 ^ 64 then
        some (UInt64.ofNat (Decimal.value run), rest)
      else
        none := by
  simp only [natural, filterMap, found.run_digits]
  by_cases empty : run = []
  · rw [if_pos empty, if_neg (fun both => both.1 empty)]
  · rw [if_neg empty]
    by_cases fits : Decimal.value run < UInt64.size
    · have accepted : run ≠ [] ∧ Decimal.value run < 2 ^ 64 := ⟨empty, fits⟩
      simp only [if_pos fits, if_pos accepted]
    · have refused : ¬ (run ≠ [] ∧ Decimal.value run < 2 ^ 64) := fun both => fits both.2
      simp only [if_neg fits, if_neg refused]

end

/-- Repeating a single character takes exactly the longest front of the text that lies in the class
of the character, and leaves the text behind it. So do white space, the blanks at the ends of a line,
gaps, words and the digits of a number, each with its own class. A gap, a word and a number need at
least one character, and a number has to fit. -/
theorem character_runs_are_longest (accepts : Char → Bool) (input : Input) :
    (∃ run rest, (many (satisfy accepts)).run input = some (run, rest) ∧
      (∀ other after, LongestRun (accepts · = true) input other after ↔
        other = run ∧ after = rest) ∧
      String.ofList run ++ rest.toString = input.toString ∧
      (rest.chars = [] ∨ ∃ char others, rest.chars = char :: others ∧ accepts char = false)) ∧
    (∃ run rest, LongestRun (Text.isWhiteSpace · = true) input run rest ∧
      whitespace.run input = some (String.ofList run, rest)) ∧
    (∃ run rest, LongestRun (fun char => char = ' ' ∨ char = '\t') input run rest ∧
      Rows.blanks.run input = some ((), rest)) ∧
    (∃ run rest, LongestRun (fun char => char = ' ' ∨ char = '\t' ∨ char = ',') input run rest ∧
      Rows.gap.run input = if run = [] then none else some ((), rest)) ∧
    (∃ run rest,
      LongestRun (fun char => Text.isWhiteSpace char = false ∧ char ≠ ',') input run rest ∧
      Rows.word.run input = if run = [] then none else some (String.ofList run, rest)) ∧
    ∃ run rest, LongestRun (fun char => '0' ≤ char ∧ char ≤ '9') input run rest ∧
      digits.run input = (if run = [] then none else some (run, rest)) ∧
      natural.run input =
        if run ≠ [] ∧ Decimal.value run < 2 ^ 64 then
          some (UInt64.ofNat (Decimal.value run), rest)
        else
          none := by
  refine ⟨?_, ?_, ?_, ?_, ?_, ?_⟩
  · obtain ⟨run, rest, found⟩ := exists_longestRun (accepts · = true) input
    refine ⟨run, rest, found.run_many fun _ => Iff.rfl, fun _ _ => found.iff_eq, ?_, ?_⟩
    · exact (Input.toString_of_append found.split).symm
    · have stops := (longestRun_iff_stops.mp found).2.2
      cases front : rest.chars with
      | nil => exact .inl rfl
      | cons char others =>
          have refused := stops char (by simp [front])
          exact .inr ⟨char, others, rfl, Bool.eq_false_iff.mpr refused⟩
  · obtain ⟨run, rest, found⟩ := exists_longestRun (Text.isWhiteSpace · = true) input
    exact ⟨run, rest, found, found.run_whitespace⟩
  · obtain ⟨run, rest, found⟩ := exists_longestRun (fun char => char = ' ' ∨ char = '\t') input
    exact ⟨run, rest, found, found.run_blanks⟩
  · obtain ⟨run, rest, found⟩ :=
      exists_longestRun (fun char => char = ' ' ∨ char = '\t' ∨ char = ',') input
    exact ⟨run, rest, found, found.run_gap⟩
  · obtain ⟨run, rest, found⟩ :=
      exists_longestRun (fun char => Text.isWhiteSpace char = false ∧ char ≠ ',') input
    exact ⟨run, rest, found, found.run_word⟩
  · obtain ⟨run, rest, found⟩ :=
      exists_longestRun (fun char => '0' ≤ char ∧ char ≤ '9') input
    exact ⟨run, rest, found, found.run_digits, found.run_natural⟩

/-- A no-break space ends a word as any other white space does. -/
example :
    Rows.word.run (Input.ofString "señor\u00a0x,y") =
      some ("señor", Input.ofString "\u00a0x,y") := by
  decide +kernel

end PuzzleKit.Parser
