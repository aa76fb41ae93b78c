import PuzzleKit.Proofs.Parser.Success

/-!
# Reading fixed words

A fixed word is read where it is a prefix of the text, and nowhere else. It is read character by
character, but a mismatch at any depth leaves nothing behind: a word is read as its parts are, and
among many words the first in the list that is a prefix is found, whatever fronts the others share
with the text.
-/

set_option autoImplicit false

namespace PuzzleKit.Parser

/-! ## One word -/

def IsAtFront (word : String) (input : Input) : Prop :=
  word.toList <+: input.chars

instance (word : String) (input : Input) : Decidable (IsAtFront word input) :=
  inferInstanceAs (Decidable (word.toList <+: input.chars))

theorem isAtFront_iff_exists {word : String} {input : Input} :
    IsAtFront word input ↔ ∃ rest : Input, input.chars = word.toList ++ rest.chars := by
  constructor
  · intro front
    obtain ⟨others, split⟩ := front
    exact ⟨Input.ofChars others, split.symm⟩
  · intro split
    obtain ⟨rest, split⟩ := split
    exact ⟨rest.chars, split.symm⟩

theorem run_string_of_isAtFront {word : String} {input : Input} (front : IsAtFront word input) :
    (string word).run input = some (word, input.drop word.toList.length) := by
  refine run_string_eq_some_iff.mpr ⟨rfl, ?_⟩
  obtain ⟨others, split⟩ := front
  rw [Input.chars_drop, ← split, List.drop_left]

theorem run_string_of_not_isAtFront {word : String} {input : Input}
    (apart : ¬ IsAtFront word input) : (string word).run input = none := by
  rw [Option.eq_none_iff_forall_ne_some]
  intro outcome matched
  obtain ⟨value, rest⟩ := outcome
  exact apart (isAtFront_iff_exists.mpr ⟨rest, (run_string_eq_some_iff.mp matched).2⟩)

theorem run_string (word : String) (input : Input) :
    (string word).run input =
      if IsAtFront word input then some (word, input.drop word.toList.length) else none := by
  split
  · next front => exact run_string_of_isAtFront front
  · next apart => exact run_string_of_not_isAtFront apart

/-- The parts of a word are read one behind the other. -/
theorem map_pair_string (first second : String) :
    ((string first).pair (string second)).map (fun (left, right) => left ++ right) =
      string (first ++ second) := by
  ext1 input
  apply Option.ext
  intro outcome
  obtain ⟨value, rest⟩ := outcome
  simp only [run_map_eq_some_iff, Prod.exists, run_pair_eq_some_iff, run_string_eq_some_iff,
    String.toList_append, List.append_assoc]
  constructor
  · intro parts
    obtain ⟨_, _, ⟨middle, ⟨rfl, front⟩, rfl, back⟩, rfl⟩ := parts
    exact ⟨rfl, by rw [front, back]⟩
  · intro parts
    obtain ⟨rfl, split⟩ := parts
    exact ⟨_, _, ⟨Input.ofChars (second.toList ++ rest.chars), ⟨rfl, split⟩, rfl, rfl⟩, rfl⟩

theorem map_snd_run_map {α β : Type} (parser : Parser α) (transform : α → β) (input : Input) :
    ((parser.map transform).run input).map Prod.snd = (parser.run input).map Prod.snd := by
  simp only [map]
  cases parser.run input <;> rfl

/-! ## Many words -/

theorem run_firstOf_strings (words : List String) (input : Input) :
    (firstOf (words.map string)).run input =
      (words.find? fun word => IsAtFront word input).map fun word =>
        (word, input.drop word.toList.length) := by
  simp only [firstOf, List.findSome?_map]
  induction words with
  | nil => rfl
  | cons word words ih =>
      rw [List.findSome?_cons, List.find?_cons, Function.comp_apply, run_string]
      by_cases front : IsAtFront word input
      · simp only [front, if_true, decide_true, Option.map_some]
      · simp only [front, if_false, decide_false, ih]

/-- The words without those that come somewhere behind one of their own prefixes. -/
def withoutShadowed : List String → List String
  | [] => []
  | word :: words =>
      word :: (withoutShadowed words).filter fun later => ¬ word.toList <+: later.toList

/-- A word that is not at the front leaves nothing to be found among the words it is a prefix of. -/
theorem find?_isAtFront_filter {word : String} {input : Input} (apart : ¬ IsAtFront word input)
    (words : List String) :
    (words.filter fun later => ¬ word.toList <+: later.toList).find?
        (fun later => IsAtFront later input) =
      words.find? fun later => IsAtFront later input := by
  rw [List.find?_filter]
  congr 1
  funext later
  by_cases front : IsAtFront later input
  · have unshadowed : ¬ word.toList <+: later.toList :=
      fun shadowed => apart (shadowed.trans front)
    simp [front, unshadowed]
  · simp [front]

/-- A word at the end stays unless one of the words before it is a prefix of it. -/
theorem withoutShadowed_concat (words : List String) (word : String) :
    withoutShadowed (words ++ [word]) =
      withoutShadowed words ++
        if ∃ earlier ∈ words, earlier.toList <+: word.toList then [] else [word] := by
  induction words with
  | nil => simp [withoutShadowed]
  | cons first words ih =>
      rw [List.cons_append, withoutShadowed, ih, List.filter_append, withoutShadowed,
        List.cons_append]
      congr 2
      by_cases shadowed : first.toList <+: word.toList
      · split <;> simp [shadowed]
      · simp [shadowed, apply_ite (List.filter _)]

example :
    withoutShadowed ["help", "hello", "help!", "hell", "hello"] = ["help", "hello", "hell"] := by
  decide +kernel

theorem find?_isAtFront_withoutShadowed (words : List String) (input : Input) :
    (withoutShadowed words).find? (fun word => IsAtFront word input) =
      words.find? fun word => IsAtFront word input := by
  induction words with
  | nil => rfl
  | cons word words ih =>
      rw [withoutShadowed, List.find?_cons, List.find?_cons]
      by_cases front : IsAtFront word input
      · simp only [front, decide_true]
      · simp only [front, decide_false]
        rw [find?_isAtFront_filter front, ih]

/-- A word is read exactly where it is a prefix of the text, with the text after it as the rest, and
it is read as its parts are. Among many words the first that is a prefix of the text is found, so a
word behind one of its own prefixes can be left out. -/
theorem string_reads_prefix (word first second : String) (words : List String) (input : Input) :
    (((string word).run input).isSome = true ↔
      ∃ rest : Input, input.chars = word.toList ++ rest.chars) ∧
    (∀ value rest, (string word).run input = some (value, rest) ↔
      value = word ∧ input.chars = word.toList ++ rest.chars) ∧
    ((string (first ++ second)).run input).map Prod.snd =
      (((string first).pair (string second)).run input).map Prod.snd ∧
    (firstOf (words.map string)).run input =
      (words.find? fun word => word.toList <+: input.chars).map (fun word =>
        (word, input.drop word.toList.length)) ∧
    (firstOf ((withoutShadowed words).map string)).run input =
      (firstOf (words.map string)).run input := by
  refine ⟨?_, fun _ _ => run_string_eq_some_iff, ?_, run_firstOf_strings words input, ?_⟩
  · rw [run_string, ← isAtFront_iff_exists]
    split
    · next front => simp [front]
    · next apart => simp [apart]
  · rw [← map_pair_string, map_snd_run_map]
  · rw [run_firstOf_strings, run_firstOf_strings, find?_isAtFront_withoutShadowed]

end PuzzleKit.Parser
