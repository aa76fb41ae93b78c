import PuzzleKit.Proofs.Parser.Laws
import PuzzleKit.Proofs.Parser.Success

/-!
# Ordered choice among many parsers

A choice among a list of parsers is the choice between two of them, folded over the list. Every
parser of the list starts where the choice started, however far the ones before it came before they
failed. What stands behind a parser that always matches is never tried.
-/

set_option autoImplicit false

namespace PuzzleKit.Parser

variable {α : Type}

/-! ## Folding -/

theorem firstOf_nil : firstOf ([] : List (Parser α)) = fail :=
  rfl

theorem firstOf_cons (parser : Parser α) (parsers : List (Parser α)) :
    firstOf (parser :: parsers) = parser.orElse (firstOf parsers) := by
  ext1 input
  simp only [firstOf, List.findSome?_cons, orElse]
  cases parser.run input <;> rfl

theorem firstOf_eq_foldr (parsers : List (Parser α)) :
    firstOf parsers = parsers.foldr orElse fail := by
  induction parsers with
  | nil => exact firstOf_nil
  | cons parser parsers ih => rw [firstOf_cons, ih, List.foldr_cons]

theorem firstOf_append (parsers others : List (Parser α)) :
    firstOf (parsers ++ others) = (firstOf parsers).orElse (firstOf others) := by
  induction parsers with
  | nil => rw [List.nil_append, firstOf_nil, fail_orElse]
  | cons parser parsers ih => rw [List.cons_append, firstOf_cons, ih, firstOf_cons, orElse_assoc]

/-! ## The parser that is chosen -/

theorem run_firstOf_eq_some_iff_exists_append {parsers : List (Parser α)} {input : Input}
    {outcome : α × Input} :
    (firstOf parsers).run input = some outcome ↔
      ∃ refused chosen untried, parsers = refused ++ chosen :: untried ∧
        (∀ parser ∈ refused, parser.run input = none) ∧ chosen.run input = some outcome := by
  simp only [firstOf, List.findSome?_eq_some_iff, and_comm]

def AlwaysMatches (parser : Parser α) : Prop :=
  ∀ input, (parser.run input).isSome = true

theorem AlwaysMatches.orElse {parser : Parser α} (always : AlwaysMatches parser)
    (other : Parser α) : parser.orElse other = parser := by
  ext1 input
  obtain ⟨outcome, matched⟩ := Option.isSome_iff_exists.mp (always input)
  rw [run_orElse_eq_some_iff.mpr (.inl matched), matched]

theorem many_alwaysMatches (parser : Parser α) : AlwaysMatches parser.many :=
  fun _ => rfl

theorem AlwaysMatches.firstOf_append {parser : Parser α} (always : AlwaysMatches parser)
    (before after : List (Parser α)) :
    firstOf (before ++ parser :: after) = firstOf (before ++ [parser]) := by
  rw [Parser.firstOf_append, Parser.firstOf_append, firstOf_cons, firstOf_cons, always.orElse,
    always.orElse]

/-! ## Optional values -/

theorem optional_eq_orElse (parser : Parser α) :
    parser.optional = (parser.map some).orElse (succeed none) := by
  ext1 input
  simp only [optional, orElse, map, succeed]
  cases parser.run input <;> rfl

/-! ## All of it -/

/-- A choice among many parsers is a folded choice between two, and a choice among two lists is the
choice between their choices. It matches as the first parser of the list does that matches at the
place where the choice starts, and nowhere else. Parsers may be put anywhere behind one that always
matches. An optional value is a choice too. The parsers are those that return an end of their input
(`Parser.run_suffix`). -/
theorem firstOf_is_ordered_choice (parsers others : List (Parser α)) (parser : Parser α)
    (input : Input) :
    (firstOf parsers).run input = (parsers.foldr orElse fail).run input ∧
    (firstOf (parsers ++ others)).run input =
      ((firstOf parsers).orElse (firstOf others)).run input ∧
    (∀ outcome, (firstOf parsers).run input = some outcome ↔
      ∃ refused chosen untried, parsers = refused ++ chosen :: untried ∧
        (∀ earlier ∈ refused, earlier.run input = none) ∧ chosen.run input = some outcome) ∧
    (AlwaysMatches parser → ∀ between added after : List (Parser α),
      (firstOf (parsers ++ parser :: (between ++ added ++ after))).run input =
        (firstOf (parsers ++ parser :: (between ++ after))).run input) ∧
    parser.optional.run input = ((parser.map some).orElse (succeed none)).run input := by
  refine ⟨?_, ?_, ?_, ?_, ?_⟩
  · rw [firstOf_eq_foldr]
  · rw [firstOf_append]
  · exact fun outcome => run_firstOf_eq_some_iff_exists_append
  · intro always between added after
    rw [always.firstOf_append, ← always.firstOf_append parsers (between ++ after)]
  · rw [optional_eq_orElse]

/-- The first parser reads a letter before it fails, and the last one is never tried. -/
theorem firstOf_is_ordered_choice_letters :
    let letters := (satisfy Char.isAlpha).many
    let numbered := ((satisfy Char.isAlpha).seqLeft (character '1')).map fun letter => [letter]
    AlwaysMatches letters ∧
      (firstOf ([numbered] ++ letters :: ([] ++ [succeed ['x']] ++ []))).run
          (Input.ofString "ab") =
        (firstOf ([numbered] ++ letters :: ([] ++ []))).run (Input.ofString "ab") ∧
      (firstOf [numbered, letters]).run (Input.ofString "ab") =
        some (['a', 'b'], Input.ofString "") := by
  intro letters numbered
  have always : AlwaysMatches letters := many_alwaysMatches _
  have refused : ∀ earlier ∈ [numbered], earlier.run (Input.ofString "ab") = none := by
    intro earlier member
    rw [List.mem_singleton.mp member]
    decide +kernel
  have matched : letters.run (Input.ofString "ab") = some (['a', 'b'], Input.ofString "") := by
    decide +kernel
  obtain ⟨_, _, _, added, _⟩ :=
    firstOf_is_ordered_choice [numbered] [] letters (Input.ofString "ab")
  obtain ⟨_, _, chosen, _, _⟩ :=
    firstOf_is_ordered_choice [numbered, letters] [] letters (Input.ofString "ab")
  refine ⟨always, added always [] [succeed ['x']] [], ?_⟩
  exact (chosen _).mpr ⟨[numbered], letters, [], rfl, refused, matched⟩

end PuzzleKit.Parser
