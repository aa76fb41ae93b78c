import PuzzleKit.Proofs.Parser.Success

/-!
# What a repetition reads

A repetition runs its parser from place to place, as long as every run gets ahead. `Repeats` states
this chain of runs without an accumulator and without a loop, and it is exactly what the loop of
`many` and `sepBy` computes.
-/

set_option autoImplicit false

namespace PuzzleKit.Parser

variable {α β : Type}

/-- The chain of runs of a repetition: every run but the last gets ahead, and at the end the parser
does not match or reads nothing. -/
inductive Repeats (parser : Parser α) : Input → List α → Input → Prop where
  | stop {input : Input} :
      (∀ value rest, parser.run input = some (value, rest) → rest = input) →
      Repeats parser input [] input
  | step {input middle rest : Input} {value : α} {values : List α} :
      parser.run input = some (value, middle) → middle.length < input.length →
      Repeats parser middle values rest → Repeats parser input (value :: values) rest

theorem repeats_nil (parser : Parser α) :
    Repeats parser (Input.ofChars []) [] (Input.ofChars []) :=
  .stop fun _ _ matched =>
    Input.eq_of_suffix_of_length_le (parser.run_suffix matched) (Nat.zero_le _)

theorem repeats_of_eq_none {parser : Parser α} {input : Input} (refused : parser.run input = none) :
    Repeats parser input [] input :=
  .stop fun _ _ matched => by cases refused.symm.trans matched

theorem Repeats.suffix {parser : Parser α} {input rest : Input} {values : List α}
    (repeated : Repeats parser input values rest) : rest.chars <:+ input.chars := by
  induction repeated with
  | stop => exact List.suffix_rfl
  | step matched _ _ ih => exact ih.trans (parser.run_suffix matched)

/-- Where a repetition has ended there is nothing more to repeat. -/
theorem Repeats.ended {parser : Parser α} {input rest : Input} {values : List α}
    (repeated : Repeats parser input values rest) : Repeats parser rest [] rest := by
  induction repeated with
  | stop still => exact .stop still
  | step _ _ _ ih => exact ih

theorem Repeats.eq_of_run {parser : Parser α} {rest after : Input} {value : α}
    (ended : Repeats parser rest [] rest) (matched : parser.run rest = some (value, after)) :
    after = rest := by
  cases ended with
  | stop still => exact still value after matched

theorem Repeats.repeatFrom_eq {parser : Parser α} {input rest : Input} {values : List α}
    (repeated : Repeats parser input values rest) (found : List α) :
    repeatFrom parser input found = (found.reverse ++ values, rest) := by
  induction repeated generalizing found with
  | @stop input ended =>
      rw [repeatFrom]
      split
      · simp
      · next value rest matched =>
          have unread := ended value rest matched
          subst rest
          simp
  | step matched shorter _ ih =>
      rw [repeatFrom]
      simp only [matched, shorter, ↓reduceIte, ih]
      simp

/-- Every repetition comes to an end, because the unread text gets shorter at every step. -/
theorem exists_repeats (parser : Parser α) (input : Input) :
    ∃ values rest, Repeats parser input values rest := by
  generalize size : input.length = length
  induction length using Nat.strongRecOn generalizing input with
  | ind length ih =>
      subst size
      cases ran : parser.run input with
      | none =>
          refine ⟨[], input, .stop ?_⟩
          intro value rest matched
          cases ran.symm.trans matched
      | some outcome =>
          obtain ⟨value, middle⟩ := outcome
          by_cases shorter : middle.length < input.length
          · obtain ⟨values, rest, others⟩ := ih middle.length shorter middle rfl
            exact ⟨value :: values, rest, .step ran shorter others⟩
          · refine ⟨[], input, .stop ?_⟩
            intro other rest matched
            cases ran.symm.trans matched
            exact Input.eq_of_suffix_of_length_le (parser.run_suffix ran) (Nat.le_of_not_lt shorter)

theorem repeatFrom_eq_iff {parser : Parser α} {input rest : Input} {found values : List α} :
    repeatFrom parser input found = (found.reverse ++ values, rest) ↔
      Repeats parser input values rest := by
  constructor
  · intro ended
    obtain ⟨others, final, repeated⟩ := exists_repeats parser input
    have same := (repeated.repeatFrom_eq found).symm.trans ended
    simp only [Prod.mk.injEq, List.append_cancel_left_eq] at same
    obtain ⟨rfl, rfl⟩ := same
    exact repeated
  · exact fun repeated => repeated.repeatFrom_eq found

theorem run_many_eq_some_iff {parser : Parser α} {input rest : Input} {values : List α} :
    (many parser).run input = some (values, rest) ↔ Repeats parser input values rest := by
  simp only [many, Option.some.injEq]
  change repeatFrom parser input [] = ([].reverse ++ values, rest) ↔ _
  exact repeatFrom_eq_iff

theorem run_many1_eq_some_iff {parser : Parser α} {input rest : Input} {values : List α} :
    (many1 parser).run input = some (values, rest) ↔
      values ≠ [] ∧ Repeats parser input values rest := by
  simp only [many1, run_filterMap_eq_some_iff, run_many_eq_some_iff]
  constructor
  · intro parts
    obtain ⟨found, repeated, accepted⟩ := parts
    cases found with
    | nil => cases accepted
    | cons value others =>
        cases accepted
        exact ⟨List.cons_ne_nil value others, repeated⟩
  · intro parts
    obtain ⟨filled, repeated⟩ := parts
    exact ⟨values, repeated, by simp [filled]⟩

/-- A list is one item without a condition, and then a repetition of a separator and an item. -/
theorem run_sepBy_eq_some_iff {item : Parser α} {separator : Parser β} {input rest : Input}
    {values : List α} :
    (item.sepBy separator).run input = some (values, rest) ↔
      item.run input = none ∧ values = [] ∧ rest = input ∨
        ∃ first middle others, item.run input = some (first, middle) ∧
          Repeats (separator.seqRight item) middle others rest ∧ values = first :: others := by
  simp only [sepBy]
  cases ran : item.run input with
  | none => simp [eq_comm]
  | some outcome =>
      obtain ⟨first, middle⟩ := outcome
      simp only [Option.some.injEq, reduceCtorEq, false_and, false_or, Prod.mk.injEq]
      constructor
      · intro ended
        obtain ⟨others, final, repeated⟩ := exists_repeats (separator.seqRight item) middle
        have same := (repeated.repeatFrom_eq [first]).symm.trans ended
        cases same
        exact ⟨first, middle, others, ⟨rfl, rfl⟩, repeated, rfl⟩
      · intro parts
        obtain ⟨_, _, others, ⟨rfl, rfl⟩, repeated, rfl⟩ := parts
        exact repeated.repeatFrom_eq [first]

/-! ## Mapped values -/

theorem Repeats.map {parser : Parser α} {input rest : Input} {values : List α}
    (repeated : Repeats parser input values rest) (transform : α → β) :
    Repeats (parser.map transform) input (values.map transform) rest := by
  induction repeated with
  | stop still =>
      apply Repeats.stop
      intro image rest matched
      obtain ⟨value, found, _⟩ := run_map_eq_some_iff.mp matched
      exact still value rest found
  | step matched shorter _ ih => exact .step (run_map_of_eq_some matched transform) shorter ih

theorem many_map (parser : Parser α) (transform : α → β) :
    (parser.map transform).many = parser.many.map (List.map transform) := by
  ext1 input
  obtain ⟨values, rest, repeated⟩ := exists_repeats parser input
  rw [run_map_of_eq_some (run_many_eq_some_iff.mpr repeated)]
  exact run_many_eq_some_iff.mpr (repeated.map transform)

theorem many1_map (parser : Parser α) (transform : α → β) :
    (parser.map transform).many1 = parser.many1.map (List.map transform) := by
  ext1 input
  simp only [many1, many_map]
  simp only [filterMap, map]
  cases parser.many.run input with
  | none => rfl
  | some outcome =>
      obtain ⟨values, rest⟩ := outcome
      cases values <;> rfl

/-! ## Runs of single characters -/

/-- Repeating a single character takes the longest run of its class, and no more. -/
theorem repeats_satisfy (accepts : Char → Bool) (chars : List Char) :
    Repeats (satisfy accepts) (Input.ofChars chars) (chars.takeWhile accepts)
      (Input.ofChars (chars.dropWhile accepts)) := by
  induction chars with
  | nil =>
      apply Repeats.stop
      intro char rest matched
      cases (run_satisfy_eq_some_iff.mp matched).1
  | cons char chars ih =>
      cases accepted : accepts char with
      | true =>
          simp only [List.takeWhile_cons, List.dropWhile_cons, accepted, ↓reduceIte]
          exact .step (run_satisfy_eq_some_iff.mpr ⟨rfl, accepted⟩) (Nat.lt_succ_self _) ih
      | false =>
          simp only [List.takeWhile_cons, List.dropWhile_cons, accepted]
          apply Repeats.stop
          intro found rest matched
          obtain ⟨front, foundAccepted⟩ := run_satisfy_eq_some_iff.mp matched
          cases front
          exact absurd foundAccepted (by simp [accepted])

theorem run_many_satisfy (accepts : Char → Bool) (input : Input) :
    (many (satisfy accepts)).run input =
      some (input.chars.takeWhile accepts, Input.ofChars (input.chars.dropWhile accepts)) := by
  rw [run_many_eq_some_iff]
  simpa using repeats_satisfy accepts input.chars

theorem run_many_satisfy_append {accepts : Char → Bool} {chars rest : List Char}
    (all : ∀ char ∈ chars, accepts char = true)
    (stops : ∀ char ∈ rest.head?, accepts char = false) :
    (many (satisfy accepts)).run (Input.ofChars (chars ++ rest)) =
      some (chars, Input.ofChars rest) := by
  rw [run_many_satisfy]
  simp only [Input.chars_ofChars, List.takeWhile_append_of_pos all,
    List.dropWhile_append_of_pos all]
  cases rest with
  | nil => simp
  | cons char rest => simp [stops char rfl]

theorem run_many1_satisfy_eq_some_iff {accepts : Char → Bool} {input rest : Input}
    {chars : List Char} :
    (many1 (satisfy accepts)).run input = some (chars, rest) ↔
      chars ≠ [] ∧ chars = input.chars.takeWhile accepts ∧
        rest.chars = input.chars.dropWhile accepts := by
  rw [run_many1_eq_some_iff, ← run_many_eq_some_iff, run_many_satisfy, Option.some.injEq,
    Prod.mk.injEq]
  constructor
  · intro parts
    obtain ⟨filled, rfl, rfl⟩ := parts
    exact ⟨filled, rfl, rfl⟩
  · intro parts
    obtain ⟨filled, rfl, after⟩ := parts
    exact ⟨filled, rfl, Input.ext after.symm⟩

theorem run_many1_satisfy_append {accepts : Char → Bool} {chars rest : List Char}
    (filled : chars ≠ []) (all : ∀ char ∈ chars, accepts char = true)
    (stops : ∀ char ∈ rest.head?, accepts char = false) :
    (many1 (satisfy accepts)).run (Input.ofChars (chars ++ rest)) =
      some (chars, Input.ofChars rest) := by
  rw [run_many1_eq_some_iff, ← run_many_eq_some_iff]
  exact ⟨filled, run_many_satisfy_append all stops⟩

theorem front_of_run_many1_satisfy {accepts : Char → Bool} {input rest : Input}
    {chars : List Char} (found : (many1 (satisfy accepts)).run input = some (chars, rest)) :
    chars ≠ [] ∧ (∀ char ∈ chars, accepts char = true) ∧ input.chars = chars ++ rest.chars := by
  obtain ⟨filled, rfl, after⟩ := run_many1_satisfy_eq_some_iff.mp found
  refine ⟨filled, ?_, ?_⟩
  · intro char member
    exact List.all_eq_true.mp List.all_takeWhile char member
  · rw [after, List.takeWhile_append_dropWhile]

end PuzzleKit.Parser
