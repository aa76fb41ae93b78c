import PuzzleKit.Parser.Grapheme
import PuzzleKit.Parser.Numeral
import PuzzleKit.Proofs.Parser.Repeats

/-!
# Parsers that always read something

A sequence reads something as soon as one of its parts does, because no part gives text back. This
settles the question for every parser that is made of single characters.
-/

set_option autoImplicit false

namespace PuzzleKit.Parser

variable {α β : Type}

/-- Whenever the parser matches, less is left than it was given. -/
def Consumes (parser : Parser α) : Prop :=
  ∀ ⦃input rest : Input⦄ ⦃value : α⦄,
    parser.run input = some (value, rest) → rest.length < input.length

theorem Consumes.map {parser : Parser α} (consumes : Consumes parser) (transform : α → β) :
    Consumes (parser.map transform) := by
  intro input rest image found
  obtain ⟨value, matched, _⟩ := run_map_eq_some_iff.mp found
  exact consumes matched

theorem Consumes.filterMap {parser : Parser α} (consumes : Consumes parser)
    (transform : α → Option β) : Consumes (parser.filterMap transform) := by
  intro input rest image found
  obtain ⟨value, matched, _⟩ := run_filterMap_eq_some_iff.mp found
  exact consumes matched

theorem Consumes.orElse {first second : Parser α} (firstConsumes : Consumes first)
    (secondConsumes : Consumes second) : Consumes (first.orElse second) := by
  intro input rest value found
  rcases run_orElse_eq_some_iff.mp found with matched | ⟨_, matched⟩
  · exact firstConsumes matched
  · exact secondConsumes matched

theorem Consumes.pair_left {first : Parser α} (consumes : Consumes first) (second : Parser β) :
    Consumes (first.pair second) := by
  intro input rest value found
  obtain ⟨left, right⟩ := value
  obtain ⟨middle, matched, followed⟩ := run_pair_eq_some_iff.mp found
  exact Nat.lt_of_le_of_lt (length_le_of_run followed) (consumes matched)

theorem Consumes.pair_right {second : Parser β} (consumes : Consumes second) (first : Parser α) :
    Consumes (first.pair second) := by
  intro input rest value found
  obtain ⟨left, right⟩ := value
  obtain ⟨middle, matched, followed⟩ := run_pair_eq_some_iff.mp found
  exact Nat.lt_of_lt_of_le (consumes followed) (length_le_of_run matched)

/-- A repetition that leaves all of its text has found nothing. -/
theorem Repeats.eq_nil_of_length_le {parser : Parser α} {input rest : Input} {values : List α}
    (repeated : Repeats parser input values rest) (unread : input.length ≤ rest.length) :
    values = [] := by
  cases repeated with
  | stop => rfl
  | step _ shorter others =>
      have := Input.length_le_of_suffix others.suffix
      omega

/-- A repetition only counts matches that read something, so one or more of them read something,
whatever is repeated. -/
theorem many1_consumes (parser : Parser α) : Consumes (many1 parser) := by
  intro input rest values found
  obtain ⟨filled, repeated⟩ := run_many1_eq_some_iff.mp found
  refine Nat.lt_of_not_le fun unread => ?_
  exact filled (repeated.eq_nil_of_length_le unread)

/-! ## Lists -/

theorem run_sepBy_of_last {item : Parser α} {separator : Parser β} {input rest : Input} {value : α}
    (found : item.run input = some (value, rest)) (ended : separator.run rest = none) :
    (item.sepBy separator).run input = some ([value], rest) := by
  have stop : Repeats (separator.seqRight item) rest [] rest :=
    .stop fun other after matched => by
      cases (run_seqRight_of_eq_none ended).symm.trans matched
  exact run_sepBy_eq_some_iff.mpr (.inr ⟨value, rest, [], found, stop, rfl⟩)

theorem run_sepBy_of_more {item : Parser α} {separator : Parser β} (consumes : Consumes separator)
    {input middle next rest : Input} {value : α} {skipped : β} {values : List α}
    (found : item.run input = some (value, middle))
    (separated : separator.run middle = some (skipped, next))
    (listed : (item.sepBy separator).run next = some (values, rest)) (filled : values ≠ []) :
    (item.sepBy separator).run input = some (value :: values, rest) := by
  rcases run_sepBy_eq_some_iff.mp listed with
    ⟨_, empty, _⟩ | ⟨first, after, others, firstRun, repeated, rfl⟩
  · exact absurd empty filled
  · have shorter : after.length < middle.length :=
      Nat.lt_of_le_of_lt (length_le_of_run firstRun) (consumes separated)
    have step := run_seqRight_eq_some_iff.mpr ⟨skipped, next, separated, firstRun⟩
    exact run_sepBy_eq_some_iff.mpr
      (.inr ⟨value, middle, first :: others, found, .step step shorter repeated, rfl⟩)

/-! ## Single parsers -/

theorem item_consumes : Consumes item := by
  intro input rest char found
  rw [rest.length_eq, input.length_eq, (Input.next?_eq_some_iff input char rest).mp found]
  exact Nat.lt_succ_self _

theorem satisfy_consumes (accepts : Char → Bool) : Consumes (satisfy accepts) :=
  item_consumes.filterMap _

theorem string_consumes {target : String} (filled : target ≠ "") : Consumes (string target) := by
  intro input rest value found
  obtain ⟨_, front⟩ := run_string_eq_some_iff.mp found
  have positive := List.length_pos_iff.mpr fun empty => filled (String.toList_eq_nil_iff.mp empty)
  rw [rest.length_eq, input.length_eq, front, List.length_append]
  omega

theorem grapheme_consumes : Consumes grapheme := by
  intro input rest value found
  simp only [grapheme, ofRead] at found
  split at found
  · cases found
  · next read =>
      split at read
      · cases read
      · next filled =>
          cases read
          cases found
          obtain ⟨char, chars, front⟩ := List.exists_cons_of_ne_nil (mt List.isEmpty_iff.mpr filled)
          simp only [Input.drop, input.length_eq, front, Text.graphemeLength, List.length_cons]
          omega

theorem digit_consumes : Consumes digit :=
  item_consumes.filterMap _

theorem digits_consumes : Consumes digits :=
  many1_consumes _

theorem natural_consumes : Consumes natural :=
  digits_consumes.filterMap _

theorem signedNumeral_consumes : Consumes signedNumeral :=
  (digits_consumes.pair_right _).map _

theorem integer_consumes : Consumes integer :=
  signedNumeral_consumes.filterMap _

theorem double_consumes : Consumes double :=
  (signedNumeral_consumes.pair_left _).filterMap _

theorem boolean_consumes : Consumes boolean :=
  ((string_consumes (by decide)).map _).orElse ((string_consumes (by decide)).map _)

end PuzzleKit.Parser
