import PuzzleKit.Proofs.Grammar.Termination

/-!
# Repetitions of repetitions

A repetition may itself be repeated, although it matches where it reads nothing. The inner one reads
all that there is in its first round, so the outer one has one round at most, and the values are
those of a single repetition. Where a match may also be left out, the repetition ends at the first
place at which nothing was there to be left out.
-/

set_option autoImplicit false

namespace PuzzleKit.Parser

variable {α : Type} {parser : Parser α} {input rest : Input} {values : List α}

/-! ## Groups of values -/

/-- All values in one group, or no group if there are no values. -/
def oneGroup (values : List α) : List (List α) :=
  if values.isEmpty then [] else [values]

@[simp]
theorem flatten_oneGroup (values : List α) : (oneGroup values).flatten = values := by
  cases values with
  | nil => rfl
  | cons value values => exact List.append_nil _

/-- A parser that reads all values at once is repeated once, or not at all. -/
theorem Repeats.atOnce {whole : Parser (List α)} (repeated : Repeats parser input values rest)
    (reads : values ≠ [] → whole.run input = some (values, rest))
    (ended : Repeats whole rest [] rest) : Repeats whole input (oneGroup values) rest := by
  cases values with
  | nil =>
      cases repeated
      exact ended
  | cons value values =>
      have shorter : rest.length < input.length :=
        Nat.lt_of_not_le fun unread => nomatch repeated.eq_nil_of_length_le unread
      exact .step (reads (List.cons_ne_nil value values)) shorter ended

theorem Repeats.many (repeated : Repeats parser input values rest) :
    Repeats parser.many input (oneGroup values) rest := by
  refine repeated.atOnce (fun _ => run_many_eq_some_iff.mpr repeated) (.stop ?_)
  intro group after matched
  have still := run_many_eq_some_iff.mpr repeated.ended
  cases still.symm.trans matched
  rfl

theorem Repeats.many1 (repeated : Repeats parser input values rest) :
    Repeats parser.many1 input (oneGroup values) rest := by
  refine repeated.atOnce (fun filled => run_many1_eq_some_iff.mpr ⟨filled, repeated⟩) (.stop ?_)
  intro group after matched
  obtain ⟨filled, again⟩ := run_many1_eq_some_iff.mp matched
  cases again with
  | stop => exact absurd rfl filled
  | step first shorter _ =>
      rw [repeated.ended.eq_of_run first] at shorter
      exact absurd shorter (Nat.lt_irrefl _)

theorem Repeats.optional (repeated : Repeats parser input values rest) :
    Repeats parser.optional input (values.map some) rest := by
  induction repeated with
  | stop still =>
      apply Repeats.stop
      intro value rest matched
      rcases run_optional_eq_some_iff.mp matched with ⟨found, first, _⟩ | ⟨_, _, same⟩
      · exact still found rest first
      · exact same
  | step matched shorter _ ih => exact .step (run_optional_of_eq_some matched) shorter ih

/-! ## Nested repetitions -/

theorem flatten_many_of_repeats {whole : Parser (List α)}
    (grouped : Repeats whole input (oneGroup values) rest) :
    (whole.many.map List.flatten).run input = some (values, rest) := by
  rw [run_map_of_eq_some (run_many_eq_some_iff.mpr grouped), flatten_oneGroup]

theorem run_many1_eq_some_iff_first :
    parser.many1.run input = some (values, rest) ↔
      ∃ value middle others, parser.run input = some (value, middle) ∧
        middle.length < input.length ∧ parser.many.run middle = some (others, rest) ∧
        values = value :: others := by
  rw [run_many1_eq_some_iff]
  constructor
  · intro parts
    obtain ⟨filled, repeated⟩ := parts
    cases repeated with
    | stop => exact absurd rfl filled
    | step matched shorter others =>
        exact ⟨_, _, _, matched, shorter, run_many_eq_some_iff.mpr others, rfl⟩
  · intro parts
    obtain ⟨value, middle, others, matched, shorter, repeated, rfl⟩ := parts
    exact ⟨List.cons_ne_nil _ _, .step matched shorter (run_many_eq_some_iff.mp repeated)⟩

theorem run_many1_of_first {value : α} {middle : Input}
    (matched : parser.run input = some (value, middle)) (shorter : middle.length < input.length) :
    parser.many1.run input = (parser.many.map (value :: ·)).run middle := by
  obtain ⟨others, rest, repeated⟩ := exists_repeats parser middle
  have more := run_many_eq_some_iff.mpr repeated
  rw [run_map_of_eq_some more]
  exact run_many1_eq_some_iff_first.mpr ⟨value, middle, others, matched, shorter, more, rfl⟩

theorem isSome_run_many1_iff :
    (parser.many1.run input).isSome = true ↔
      ∃ value middle, parser.run input = some (value, middle) ∧
        middle.length < input.length := by
  rw [Option.isSome_iff_exists]
  constructor
  · intro matchesSome
    obtain ⟨⟨values, rest⟩, matched⟩ := matchesSome
    obtain ⟨value, middle, _, first, shorter, _⟩ := run_many1_eq_some_iff_first.mp matched
    exact ⟨value, middle, first, shorter⟩
  · intro parts
    obtain ⟨value, middle, first, shorter⟩ := parts
    obtain ⟨others, rest, repeated⟩ := exists_repeats parser middle
    exact ⟨_, run_many1_eq_some_iff_first.mpr
      ⟨value, middle, others, first, shorter, run_many_eq_some_iff.mpr repeated, rfl⟩⟩

/-- Repeating a repetition reads what the repetition reads, whether or not it has to match once.
Repeating a match that may be left out reads the same values, and none of them is left out. One or
more matches are there exactly where the first of them reads something, and the others are what a
repetition reads behind it. All of these repetitions end after finitely many calls, wherever the
repeated parser matches the empty text. -/
theorem nested_repetition_reads_alike (parser : Parser α) (input : Input) :
    (parser.many.many.map List.flatten).run input = parser.many.run input ∧
      (parser.many1.many.map List.flatten).run input = parser.many.run input ∧
      parser.optional.many.run input = (parser.many.map (List.map some)).run input ∧
      ((parser.many1.run input).isSome = true ↔
        ∃ value middle, parser.run input = some (value, middle) ∧
          middle.length < input.length) ∧
      (∀ value middle, parser.run input = some (value, middle) → middle.length < input.length →
        parser.many1.run input = (parser.many.map (value :: ·)).run middle) ∧
      Grammar.Evaluates (.many (.many (.primitive (.custom parser)))) .empty input
        (parser.many.many.run input) ∧
      Grammar.Evaluates (.many (.many1 (.primitive (.custom parser)))) .empty input
        (parser.many1.many.run input) ∧
      Grammar.Evaluates (.many (.optional (.primitive (.custom parser)))) .empty input
        (parser.optional.many.run input) := by
  obtain ⟨values, rest, repeated⟩ := exists_repeats parser input
  have single := run_many_eq_some_iff.mpr repeated
  refine ⟨?_, ?_, ?_, isSome_run_many1_iff, fun _ _ => run_many1_of_first, ?_, ?_, ?_⟩
  · rw [single, flatten_many_of_repeats repeated.many]
  · rw [single, flatten_many_of_repeats repeated.many1]
  · rw [run_map_of_eq_some single]
    exact run_many_eq_some_iff.mpr repeated.optional
  · have guarded : (Grammar.many (.many (.primitive (.custom parser))) :
        Grammar [] (List (List α))).Guarded 0 := True.intro
    exact guarded.evaluates Grammar.settled_empty
  · have guarded : (Grammar.many (.many1 (.primitive (.custom parser))) :
        Grammar [] (List (List α))).Guarded 0 := True.intro
    exact guarded.evaluates Grammar.settled_empty
  · have guarded : (Grammar.many (.optional (.primitive (.custom parser))) :
        Grammar [] (List (Option α))).Guarded 0 := True.intro
    exact guarded.evaluates Grammar.settled_empty

/-- A run of one letter is repeated once, and the run after it is empty. -/
theorem nested_repetition_reads_alike_letters :
    (character 'a').many.run (Input.ofString "aab") = some (['a', 'a'], Input.ofString "b") ∧
      (Input.ofString "b").length < (Input.ofString "aab").length ∧
      (character 'a').many.many1.run (Input.ofString "aab") =
        ((character 'a').many.many.map (['a', 'a'] :: ·)).run (Input.ofString "b") := by
  have matched : (character 'a').many.run (Input.ofString "aab") =
      some (['a', 'a'], Input.ofString "b") := by
    decide +kernel
  have shorter : (Input.ofString "b").length < (Input.ofString "aab").length := by
    decide
  obtain ⟨_, _, _, _, first, _⟩ :=
    nested_repetition_reads_alike (character 'a').many (Input.ofString "aab")
  exact ⟨matched, shorter, first _ _ matched shorter⟩

end PuzzleKit.Parser
