import PuzzleKit.Proofs.Rows.Line

/-!
# Reading a row

The row parser chooses greedily: it reads all blanks, then as many values as there are, and gives a
gap back if no value follows it. What it reads this way is still exactly the rows, because a value
neither begins nor goes on with a blank, a comma or a newline.
-/

set_option autoImplicit false

namespace PuzzleKit.Rows

variable {α : Type}

/-- A parser of lines that reads exactly the lines of a written form, and none across a line end. -/
structure LineReader (line : Parser α) (IsLine : List Char → α → Prop) : Prop where
  single : ∀ {text value}, IsLine text value → '\n' ∉ text
  reads : ∀ {text rest value}, IsLine text value → Text.AtLineEnd rest →
    line.run (Input.ofChars (text ++ rest)) = some (value, Input.ofChars rest)
  sound : ∀ {input rest value}, line.run input = some (value, rest) →
    ∃ text, IsLine text value ∧ input.chars = text ++ rest.chars

theorem run_blanks_eq_some_iff {input rest : Input} :
    blanks.run input = some ((), rest) ↔ rest.chars = input.chars.dropWhile isBlank := by
  rw [blanks, Parser.run_map_eq_some_iff]
  simp only [Parser.run_many_satisfy, Option.some.injEq, Prod.mk.injEq, and_true]
  constructor
  · intro parts
    obtain ⟨_, _, rfl⟩ := parts
    rfl
  · exact fun after => ⟨_, rfl, Input.ext after.symm⟩

theorem run_gap_eq_some_iff {input rest : Input} :
    gap.run input = some ((), rest) ↔
      input.chars.takeWhile isGapChar ≠ [] ∧ rest.chars = input.chars.dropWhile isGapChar := by
  rw [gap, Parser.run_map_eq_some_iff]
  simp only [Parser.run_many1_satisfy_eq_some_iff, and_true]
  constructor
  · intro parts
    obtain ⟨_, filled, rfl, after⟩ := parts
    exact ⟨filled, after⟩
  · exact fun ⟨filled, after⟩ => ⟨_, filled, rfl, after⟩

/-! ## Where a value can begin and end -/

theorem isGapChar_of_isBlank {char : Char} (blank : isBlank char = true) :
    isGapChar char = true := by
  simp [isGapChar, blank]

theorem not_mem_newline_of_isGapChar {text : List Char}
    (gaps : ∀ char ∈ text, isGapChar char = true) : '\n' ∉ text := by
  intro member
  exact absurd (gaps '\n' member) (by decide)

/-- A gap that is there delimits a value, and so does a blank end of the line. -/
theorem delimits_gap {gap rest : List Char} (filled : gap ≠ [])
    (gaps : ∀ char ∈ gap, isGapChar char = true) : Delimits (gap ++ rest) := by
  cases gap with
  | nil => exact absurd rfl filled
  | cons first others =>
      intro char member
      have same : first = char := Option.some.inj member
      exact .inl (same ▸ gaps first List.mem_cons_self)

theorem delimits_atLineEnd {rest : List Char} (ends : Text.AtLineEnd rest) : Delimits rest := by
  intro char member
  rcases ends with rfl | ⟨more, rfl⟩
  · cases member
  · cases member
    exact .inr rfl

theorem delimits_blank {after rest : List Char} (blank : ∀ char ∈ after, isBlank char = true)
    (ends : Text.AtLineEnd rest) : Delimits (after ++ rest) := by
  by_cases empty : after = []
  · subst empty
    exact delimits_atLineEnd ends
  · exact delimits_gap empty fun char member => isGapChar_of_isBlank (blank char member)

theorem dropWhile_atLineEnd {accepts : Char → Bool} (stops : accepts '\n' = false)
    {text rest : List Char} (all : ∀ char ∈ text, accepts char = true)
    (ends : Text.AtLineEnd rest) : (text ++ rest).dropWhile accepts = rest := by
  rw [List.dropWhile_append_of_pos all]
  rcases ends with rfl | ⟨more, rfl⟩
  · rfl
  · simp [stops]

section Values

variable {token : Parser α} {IsToken : List Char → α → Prop}

/-- No value begins at the end of a line. -/
theorem TokenReader.run_atLineEnd (reader : TokenReader token IsToken) {rest : List Char}
    (ends : Text.AtLineEnd rest) : token.run (Input.ofChars rest) = none := by
  cases ran : token.run (Input.ofChars rest) with
  | none => rfl
  | some outcome =>
      obtain ⟨value, after⟩ := outcome
      obtain ⟨text, written, front⟩ := reader.sound ran
      cases text with
      | nil => exact absurd rfl (reader.ne_nil written)
      | cons first others =>
          rcases ends with rfl | ⟨more, rfl⟩
          · cases front
          · cases front
            exact absurd rfl (reader.solid written '\n' List.mem_cons_self).2

theorem TokenReader.exists_head (reader : TokenReader token IsToken) {text : List Char}
    {values : List α} (read : IsValues IsToken text values) :
    ∃ first others, text = first :: others ∧ isGapChar first = false := by
  have head : ∀ {text value}, IsToken text value →
      ∃ first others, text = first :: others ∧ isGapChar first = false := by
    intro text value written
    cases text with
    | nil => exact absurd rfl (reader.ne_nil written)
    | cons first others =>
        exact ⟨first, others, rfl, (reader.solid written first List.mem_cons_self).1⟩
  cases read with
  | last written => exact head written
  | more written =>
      obtain ⟨first, others, rfl, solid⟩ := head written
      exact ⟨first, _, rfl, solid⟩

theorem TokenReader.not_mem_newline (reader : TokenReader token IsToken) {text : List Char}
    {values : List α} (read : IsValues IsToken text values) : '\n' ∉ text := by
  induction read with
  | last written => exact fun member => (reader.solid written '\n' member).2 rfl
  | more written _ gaps _ ih =>
      simp only [List.mem_append, not_or]
      exact ⟨fun member => (reader.solid written '\n' member).2 rfl,
        not_mem_newline_of_isGapChar gaps, ih⟩

/-- Blanks at the end of a line are read as a gap, but no value follows them. -/
theorem TokenReader.repeats_stop (reader : TokenReader token IsToken) {after rest : List Char}
    (blank : ∀ char ∈ after, isBlank char = true) (ends : Text.AtLineEnd rest) :
    Parser.Repeats (gap.seqRight token) (Input.ofChars (after ++ rest)) []
      (Input.ofChars (after ++ rest)) := by
  apply Parser.Repeats.stop
  intro value final found
  obtain ⟨_, middle, skipped, read⟩ := Parser.run_seqRight_eq_some_iff.mp found
  have middleEq : middle = Input.ofChars rest := by
    apply Input.ext
    rw [(run_gap_eq_some_iff.mp skipped).2]
    exact dropWhile_atLineEnd (by decide)
      (fun char member => isGapChar_of_isBlank (blank char member)) ends
  rw [middleEq, reader.run_atLineEnd ends] at read
  cases read

theorem TokenReader.run_values (reader : TokenReader token IsToken)
    {text after rest : List Char} {values : List α} (read : IsValues IsToken text values)
    (blank : ∀ char ∈ after, isBlank char = true) (ends : Text.AtLineEnd rest) :
    ∃ first middle others,
      token.run (Input.ofChars (text ++ (after ++ rest))) = some (first, middle) ∧
      Parser.Repeats (gap.seqRight token) middle others (Input.ofChars (after ++ rest)) ∧
      values = first :: others := by
  induction read with
  | @last text value written =>
      exact ⟨value, _, [], reader.reads written (delimits_blank blank ends),
        reader.repeats_stop blank ends, rfl⟩
  | @more text between others value values written filled gaps read ih =>
      obtain ⟨next, middle, following, nextRun, repeated, rfl⟩ := ih
      obtain ⟨head, tail, rfl, solid⟩ := reader.exists_head read
      let rear := head :: tail ++ (after ++ rest)
      have skipped : gap.run (Input.ofChars (between ++ rear)) = some ((), Input.ofChars rear) := by
        simp only [run_gap_eq_some_iff, Input.chars_ofChars, List.takeWhile_append_of_pos gaps,
          List.dropWhile_append_of_pos gaps]
        simp [rear, solid, filled]
      have step : (gap.seqRight token).run (Input.ofChars (between ++ rear)) =
          some (next, middle) :=
        Parser.run_seqRight_eq_some_iff.mpr ⟨(), _, skipped, nextRun⟩
      have shorter : middle.length < (Input.ofChars (between ++ rear)).length := by
        have rearLe := Parser.length_le_of_run nextRun
        have betweenPos := List.length_pos_iff.mpr filled
        simp only [Input.length_ofChars, List.length_append, rear] at rearLe ⊢
        omega
      refine ⟨value, Input.ofChars (between ++ rear), next :: following, ?_,
        .step step shorter repeated, rfl⟩
      have delimited : Delimits (between ++ rear) := delimits_gap filled gaps
      have valueRun := reader.reads written delimited
      simpa only [List.append_assoc, rear] using valueRun

theorem TokenReader.isValues_of_repeats (reader : TokenReader token IsToken)
    {middle rest : Input} {others : List α}
    (repeated : Parser.Repeats (gap.seqRight token) middle others rest)
    {first : α} {text : List Char} (written : IsToken text first) :
    ∃ front, IsValues IsToken front (first :: others) ∧
      text ++ middle.chars = front ++ rest.chars := by
  induction repeated generalizing first text with
  | stop => exact ⟨text, .last written, rfl⟩
  | @step input middle rest value values matched _ _ ih =>
      obtain ⟨_, after, skipped, read⟩ := Parser.run_seqRight_eq_some_iff.mp matched
      obtain ⟨filled, afterEq⟩ := run_gap_eq_some_iff.mp skipped
      obtain ⟨next, nextWritten, nextFront⟩ := reader.sound read
      obtain ⟨front, valuesRead, same⟩ := ih nextWritten
      refine ⟨text ++ (input.chars.takeWhile isGapChar ++ front),
        .more written filled (List.all_eq_true.mp List.all_takeWhile) valuesRead, ?_⟩
      rw [List.append_assoc, List.append_assoc, ← same, ← nextFront, afterEq,
        List.takeWhile_append_dropWhile]

/-! ## Whole rows -/

theorem TokenReader.run_row (reader : TokenReader token IsToken) {text rest : List Char}
    {values : List α} (written : IsRow IsToken text values) (ends : Text.AtLineEnd rest) :
    (row token).run (Input.ofChars (text ++ rest)) = some (values, Input.ofChars rest) := by
  simp only [row, Parser.run_seqLeft_eq_some_iff, Parser.run_seqRight_eq_some_iff]
  cases written with
  | blank blank =>
      have skipped : blanks.run (Input.ofChars (text ++ rest)) = some ((), Input.ofChars rest) :=
        run_blanks_eq_some_iff.mpr (dropWhile_atLineEnd (by decide) blank ends).symm
      have noBlank : ([] ++ rest).dropWhile isBlank = rest :=
        dropWhile_atLineEnd (by decide) (by simp) ends
      have kept : blanks.run (Input.ofChars rest) = some ((), Input.ofChars rest) :=
        run_blanks_eq_some_iff.mpr noBlank.symm
      have nothing : (token.sepBy gap).run (Input.ofChars rest) = some ([], Input.ofChars rest) :=
        Parser.run_sepBy_eq_some_iff.mpr (.inl ⟨reader.run_atLineEnd ends, rfl, rfl⟩)
      exact ⟨_, (), ⟨(), _, skipped, nothing⟩, kept⟩
  | @values before middle after values blankBefore read blankAfter =>
      obtain ⟨head, tail, rfl, solid⟩ := reader.exists_head read
      have headNotBlank : isBlank head = false := by
        rw [Bool.eq_false_iff]
        exact fun blank => absurd (isGapChar_of_isBlank blank) (by simp [solid])
      have skipped : blanks.run (Input.ofChars (before ++ (head :: tail ++ after) ++ rest)) =
          some ((), Input.ofChars (head :: tail ++ (after ++ rest))) := by
        rw [run_blanks_eq_some_iff, Input.chars_ofChars, Input.chars_ofChars, List.append_assoc,
          List.dropWhile_append_of_pos blankBefore]
        simp [headNotBlank]
      obtain ⟨first, next, others, firstRun, repeated, rfl⟩ :=
        reader.run_values read blankAfter ends
      have listed : (token.sepBy gap).run (Input.ofChars (head :: tail ++ (after ++ rest))) =
          some (first :: others, Input.ofChars (after ++ rest)) :=
        Parser.run_sepBy_eq_some_iff.mpr (.inr ⟨first, next, others, firstRun, repeated, rfl⟩)
      have trailing : blanks.run (Input.ofChars (after ++ rest)) = some ((), Input.ofChars rest) :=
        run_blanks_eq_some_iff.mpr (dropWhile_atLineEnd (by decide) blankAfter ends).symm
      exact ⟨_, (), ⟨(), _, skipped, listed⟩, trailing⟩

theorem TokenReader.isRow_of_run (reader : TokenReader token IsToken) {input rest : Input}
    {values : List α} (found : (row token).run input = some (values, rest)) :
    ∃ text, IsRow IsToken text values ∧ input.chars = text ++ rest.chars := by
  simp only [row, Parser.run_seqLeft_eq_some_iff, Parser.run_seqRight_eq_some_iff] at found
  obtain ⟨third, _, ⟨_, second, skipped, listed⟩, trailing⟩ := found
  have front : input.chars = input.chars.takeWhile isBlank ++ second.chars := by
    rw [run_blanks_eq_some_iff.mp skipped, List.takeWhile_append_dropWhile]
  have rear : third.chars = third.chars.takeWhile isBlank ++ rest.chars := by
    rw [run_blanks_eq_some_iff.mp trailing, List.takeWhile_append_dropWhile]
  have blankBefore : ∀ char ∈ input.chars.takeWhile isBlank, isBlank char = true :=
    List.all_eq_true.mp List.all_takeWhile
  have blankAfter : ∀ char ∈ third.chars.takeWhile isBlank, isBlank char = true :=
    List.all_eq_true.mp List.all_takeWhile
  rcases Parser.run_sepBy_eq_some_iff.mp listed with
    ⟨_, rfl, rfl⟩ | ⟨first, next, others, firstRun, repeated, rfl⟩
  · refine ⟨input.chars.takeWhile isBlank ++ third.chars.takeWhile isBlank, .blank ?_, ?_⟩
    · simpa [or_imp, forall_and] using ⟨blankBefore, blankAfter⟩
    · rw [List.append_assoc, ← rear, ← front]
  · obtain ⟨text, written, firstFront⟩ := reader.sound firstRun
    obtain ⟨middle, read, same⟩ := reader.isValues_of_repeats repeated written
    refine ⟨_, .values blankBefore read blankAfter, ?_⟩
    rw [List.append_assoc, List.append_assoc, ← rear, ← same, ← firstFront, ← front]

theorem TokenReader.row (reader : TokenReader token IsToken) :
    LineReader (row token) (IsRow IsToken) where
  single written := by
    cases written with
    | blank blank =>
        exact not_mem_newline_of_isGapChar fun char member =>
          isGapChar_of_isBlank (blank char member)
    | values blankBefore read blankAfter =>
        simp only [List.mem_append, not_or]
        exact ⟨fun member => absurd (blankBefore '\n' member) (by decide),
          reader.not_mem_newline read, fun member => absurd (blankAfter '\n' member) (by decide)⟩
  reads := reader.run_row
  sound := reader.isRow_of_run

end Values

end PuzzleKit.Rows
