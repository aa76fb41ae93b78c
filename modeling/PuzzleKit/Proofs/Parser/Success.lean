import PuzzleKit.Parser.Character

/-!
# Successful runs of composed parsers

What a success of a composed parser says about the runs of its parts. Each statement is exact, so
that a run can be put together and taken apart by the same lemma.
-/

set_option autoImplicit false

namespace PuzzleKit.Parser

variable {α β : Type}

theorem run_map_eq_some_iff {parser : Parser α} {transform : α → β} {input rest : Input}
    {image : β} :
    (parser.map transform).run input = some (image, rest) ↔
      ∃ value, parser.run input = some (value, rest) ∧ transform value = image := by
  constructor
  · intro found
    simp only [map] at found
    split at found
    · cases found
    · next value middle matched =>
        cases found
        exact ⟨value, matched, rfl⟩
  · intro parts
    obtain ⟨value, matched, rfl⟩ := parts
    simp only [map, matched]

theorem run_map_of_eq_some {parser : Parser α} {input rest : Input} {value : α}
    (found : parser.run input = some (value, rest)) (transform : α → β) :
    (parser.map transform).run input = some (transform value, rest) :=
  run_map_eq_some_iff.mpr ⟨value, found, rfl⟩

theorem run_filterMap_eq_some_iff {parser : Parser α} {transform : α → Option β}
    {input rest : Input} {image : β} :
    (parser.filterMap transform).run input = some (image, rest) ↔
      ∃ value, parser.run input = some (value, rest) ∧ transform value = some image := by
  constructor
  · intro found
    simp only [filterMap] at found
    split at found
    · cases found
    · next value middle matched =>
        split at found
        · cases found
        · next accepted =>
            cases found
            exact ⟨value, matched, accepted⟩
  · intro parts
    obtain ⟨value, matched, accepted⟩ := parts
    simp only [filterMap, matched, accepted]

theorem run_bind_eq_some_iff {parser : Parser α} {next : α → Parser β} {input : Input}
    {outcome : β × Input} :
    (parser.bind next).run input = some outcome ↔
      ∃ value middle, parser.run input = some (value, middle) ∧
        (next value).run middle = some outcome := by
  constructor
  · intro found
    simp only [bind] at found
    split at found
    · cases found
    · next value middle matched => exact ⟨value, middle, matched, found⟩
  · intro parts
    obtain ⟨value, middle, matched, followed⟩ := parts
    simp only [bind, matched, followed]

theorem run_orElse_eq_some_iff {first second : Parser α} {input : Input}
    {outcome : α × Input} :
    (first.orElse second).run input = some outcome ↔
      first.run input = some outcome ∨
        first.run input = none ∧ second.run input = some outcome := by
  simp only [orElse]
  cases ran : first.run input <;> simp

theorem run_pair_eq_some_iff {first : Parser α} {second : Parser β} {input rest : Input}
    {left : α} {right : β} :
    (first.pair second).run input = some ((left, right), rest) ↔
      ∃ middle, first.run input = some (left, middle) ∧
        second.run middle = some (right, rest) := by
  constructor
  · intro found
    simp only [pair] at found
    split at found
    · cases found
    · next middle matched =>
        split at found
        · cases found
        · next followed =>
            cases found
            exact ⟨middle, matched, followed⟩
  · intro parts
    obtain ⟨middle, matched, followed⟩ := parts
    simp only [pair, matched, followed]

theorem run_seqLeft_eq_some_iff {first : Parser α} {second : Parser β} {input rest : Input}
    {value : α} :
    (first.seqLeft second).run input = some (value, rest) ↔
      ∃ middle skipped, first.run input = some (value, middle) ∧
        second.run middle = some (skipped, rest) := by
  constructor
  · intro found
    simp only [seqLeft] at found
    split at found
    · cases found
    · next middle matched =>
        split at found
        · cases found
        · next skipped _ followed =>
            cases found
            exact ⟨middle, skipped, matched, followed⟩
  · intro parts
    obtain ⟨middle, skipped, matched, followed⟩ := parts
    simp only [seqLeft, matched, followed]

theorem run_seqRight_eq_some_iff {first : Parser α} {second : Parser β} {input : Input}
    {outcome : β × Input} :
    (first.seqRight second).run input = some outcome ↔
      ∃ skipped middle, first.run input = some (skipped, middle) ∧
        second.run middle = some outcome := by
  constructor
  · intro found
    simp only [seqRight] at found
    split at found
    · cases found
    · next skipped middle matched => exact ⟨skipped, middle, matched, found⟩
  · intro parts
    obtain ⟨skipped, middle, matched, followed⟩ := parts
    simp only [seqRight, matched, followed]

theorem run_seqRight_of_eq_none {first : Parser α} {second : Parser β} {input : Input}
    (refused : first.run input = none) : (first.seqRight second).run input = none := by
  simp only [seqRight, refused]

theorem run_optional_eq_some_iff {parser : Parser α} {input rest : Input} {value : Option α} :
    parser.optional.run input = some (value, rest) ↔
      (∃ found, parser.run input = some (found, rest) ∧ value = some found) ∨
        parser.run input = none ∧ value = none ∧ rest = input := by
  simp only [optional]
  cases ran : parser.run input with
  | none => simp [eq_comm]
  | some outcome =>
      obtain ⟨found, middle⟩ := outcome
      simp only [Option.some.injEq, Prod.mk.injEq, reduceCtorEq, false_and, or_false]
      constructor
      · intro parts
        obtain ⟨rfl, rfl⟩ := parts
        exact ⟨found, ⟨rfl, rfl⟩, rfl⟩
      · intro parts
        obtain ⟨_, ⟨rfl, rfl⟩, rfl⟩ := parts
        exact ⟨rfl, rfl⟩

theorem run_optional_of_eq_none {parser : Parser α} {input : Input}
    (refused : parser.run input = none) : parser.optional.run input = some (none, input) :=
  run_optional_eq_some_iff.mpr (.inr ⟨refused, rfl, rfl⟩)

theorem run_optional_of_eq_some {parser : Parser α} {input rest : Input} {value : α}
    (found : parser.run input = some (value, rest)) :
    parser.optional.run input = some (some value, rest) :=
  run_optional_eq_some_iff.mpr (.inl ⟨value, found, rfl⟩)

theorem run_firstOf_eq_some_iff {count : Nat} {choice : Fin count → Parser α} {input : Input}
    {outcome : α × Input} :
    (firstOf (List.ofFn choice)).run input = some outcome ↔
      ∃ index, (∀ earlier < index, (choice earlier).run input = none) ∧
        (choice index).run input = some outcome := by
  induction count with
  | zero => simp [firstOf]
  | succ count ih =>
      have others : (firstOf (List.ofFn fun index => choice index.succ)).run input = some outcome ↔
          ∃ index : Fin count, (∀ earlier < index, (choice earlier.succ).run input = none) ∧
            (choice index.succ).run input = some outcome := ih
      simp only [firstOf, List.ofFn_succ, List.findSome?_cons] at others ⊢
      cases ran : (choice 0).run input with
      | some found =>
          constructor
          · intro same
            exact ⟨0, fun earlier before => absurd before (Fin.not_lt_zero earlier), ran.trans same⟩
          · intro parts
            obtain ⟨index, refused, matched⟩ := parts
            cases index using Fin.cases with
            | zero => exact ran.symm.trans matched
            | succ index => cases ran.symm.trans (refused 0 index.succ_pos)
      | none =>
          rw [others]
          constructor
          · intro parts
            obtain ⟨index, refused, matched⟩ := parts
            refine ⟨index.succ, fun earlier before => ?_, matched⟩
            cases earlier using Fin.cases with
            | zero => exact ran
            | succ earlier => exact refused earlier (Fin.succ_lt_succ_iff.mp before)
          · intro parts
            obtain ⟨index, refused, matched⟩ := parts
            cases index using Fin.cases with
            | zero => cases ran.symm.trans matched
            | succ index =>
                refine ⟨index, fun earlier before => ?_, matched⟩
                exact refused earlier.succ (Fin.succ_lt_succ_iff.mpr before)

theorem run_satisfy_eq_some_iff {accepts : Char → Bool} {input rest : Input} {char : Char} :
    (satisfy accepts).run input = some (char, rest) ↔
      input.chars = char :: rest.chars ∧ accepts char = true := by
  simp only [satisfy, run_filterMap_eq_some_iff, item, Input.next?_eq_some_iff]
  constructor
  · intro parts
    obtain ⟨found, front, accepted⟩ := parts
    split at accepted
    · next acceptsFound =>
        cases accepted
        exact ⟨front, acceptsFound⟩
    · cases accepted
  · intro parts
    obtain ⟨front, accepted⟩ := parts
    exact ⟨char, front, by simp [accepted]⟩

theorem run_satisfy_eq_none {accepts : Char → Bool} {input : Input}
    (refused : ∀ char ∈ input.chars.head?, accepts char = false) :
    (satisfy accepts).run input = none := by
  cases ran : (satisfy accepts).run input with
  | none => rfl
  | some outcome =>
      obtain ⟨char, rest⟩ := outcome
      obtain ⟨front, accepted⟩ := run_satisfy_eq_some_iff.mp ran
      have different := refused char (by simp [front])
      exact absurd accepted (by simp [different])

theorem run_character_eq_some_iff {expected char : Char} {input rest : Input} :
    (character expected).run input = some (char, rest) ↔
      input.chars = expected :: rest.chars ∧ char = expected := by
  simp only [character, run_satisfy_eq_some_iff, beq_iff_eq]
  constructor
  · intro parts
    obtain ⟨front, rfl⟩ := parts
    exact ⟨front, rfl⟩
  · intro parts
    obtain ⟨front, rfl⟩ := parts
    exact ⟨front, rfl⟩

theorem run_character (char : Char) (rest : List Char) :
    (character char).run (Input.ofChars (char :: rest)) = some (char, Input.ofChars rest) :=
  run_character_eq_some_iff.mpr ⟨rfl, rfl⟩

theorem run_endOfInput_eq_some_iff {input rest : Input} :
    endOfInput.run input = some ((), rest) ↔ input.chars = [] ∧ rest = input := by
  simp only [endOfInput]
  split
  · next empty => simpa [(Input.isEmpty_iff input).mp empty] using eq_comm
  · next filled => simp [← Input.isEmpty_iff, filled]

theorem run_endOfLine_eq_some_iff {input rest : Input} :
    endOfLine.run input = some ((), rest) ↔
      input.chars = '\n' :: rest.chars ∨ input.chars = [] ∧ rest = input := by
  have newlineIff : (newline.map fun _ => ()).run input = some ((), rest) ↔
      input.chars = '\n' :: rest.chars := by
    simp [newline, run_map_eq_some_iff, run_character_eq_some_iff]
  rw [endOfLine, run_orElse_eq_some_iff, newlineIff, run_endOfInput_eq_some_iff]
  constructor
  · intro either
    rcases either with front | ⟨_, ended⟩
    · exact .inl front
    · exact .inr ended
  · intro either
    rcases either with front | ended
    · exact .inl front
    · have unread : newline.run input = none := run_satisfy_eq_none (by simp [ended.1])
      exact .inr ⟨by simp only [map, unread], ended⟩

/-- Skipping a literal is the same as finding it at the front of the text. -/
theorem skip?_eq_some_iff {expected : List Char} {input rest : Input} :
    skip? expected input = some rest ↔ input.chars = expected ++ rest.chars := by
  induction expected generalizing input with
  | nil =>
      simp only [skip?, List.foldlM_nil, pure, Option.some.injEq, List.nil_append]
      exact ⟨fun same => same ▸ rfl, Input.ext⟩
  | cons char expected ih =>
      constructor
      · intro skipped
        obtain ⟨middle, first, others⟩ := Option.bind_eq_some_iff.mp skipped
        obtain ⟨⟨_, after⟩, matched, rfl⟩ := Option.map_eq_some_iff.mp first
        rw [(run_character_eq_some_iff.mp matched).1, ih.mp others, List.cons_append]
      · intro front
        refine Option.bind_eq_some_iff.mpr ⟨Input.ofChars (expected ++ rest.chars), ?_, ih.mpr rfl⟩
        have matched : (character char).run input =
            some (char, Input.ofChars (expected ++ rest.chars)) :=
          run_character_eq_some_iff.mpr ⟨front, rfl⟩
        simp only [matched, Option.map_some]

theorem run_string_eq_some_iff {target value : String} {input rest : Input} :
    (string target).run input = some (value, rest) ↔
      value = target ∧ input.chars = target.toList ++ rest.chars := by
  rw [← skip?_eq_some_iff]
  simp only [string]
  cases skipped : skip? target.toList input with
  | none => simp
  | some after => simp [eq_comm]

end PuzzleKit.Parser
