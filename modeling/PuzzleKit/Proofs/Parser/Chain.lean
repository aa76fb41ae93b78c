import PuzzleKit.Proofs.Grammar.Termination

/-!
# The places a repetition comes to

A repetition runs its parser at one place after another. The places form a chain: at each of them
but the last the parser matches and gets ahead, and at the last one it does not match or reads
nothing. There is exactly one such chain from every place, and it is what `many` follows. A list is
an item and then a chain of separators with items, so it never takes a separator for itself.
-/

set_option autoImplicit false

namespace PuzzleKit.Parser

variable {α β : Type} {parser : Parser α} {input : Input}

/-! ## Chains -/

/-- Where a number of steps lead to. A step is a value that was read and the text after it. -/
def place (input : Input) : List (α × Input) → Nat → Input
  | (_, next) :: steps, count + 1 => place next steps count
  | _, _ => input

/-- The steps of a repetition from a place on. -/
structure Chain (parser : Parser α) (input : Input) (steps : List (α × Input)) : Prop where
  run_place : ∀ (index : Nat) (inside : index < steps.length),
    parser.run (place input steps index) = some steps[index]
  shorter : ∀ index < steps.length,
    (place input steps (index + 1)).length < (place input steps index).length
  ended : parser.run (place input steps steps.length) = none ∨
    ∃ value, parser.run (place input steps steps.length) =
      some (value, place input steps steps.length)

@[simp]
theorem place_zero (input : Input) (steps : List (α × Input)) : place input steps 0 = input := by
  cases steps <;> rfl

@[simp]
theorem place_succ (input : Input) (step : α × Input) (steps : List (α × Input)) (count : Nat) :
    place input (step :: steps) (count + 1) = place step.2 steps count :=
  rfl

theorem chain_nil_iff :
    Chain parser input [] ↔
      ∀ value rest, parser.run input = some (value, rest) → rest = input := by
  constructor
  · intro chain value rest matched
    rcases chain.ended with refused | ⟨other, still⟩
    · cases refused.symm.trans matched
    · cases still.symm.trans matched
      rfl
  · intro still
    refine ⟨fun _ inside => (nomatch inside), fun _ inside => (nomatch inside), ?_⟩
    cases ran : parser.run input with
    | none => exact .inl ran
    | some outcome =>
        obtain ⟨value, rest⟩ := outcome
        cases still value rest ran
        exact .inr ⟨value, ran⟩

/-- A chain can be taken apart at its first step. -/
theorem chain_cons_iff {step : α × Input} {steps : List (α × Input)} :
    Chain parser input (step :: steps) ↔
      parser.run input = some step ∧ step.2.length < input.length ∧ Chain parser step.2 steps := by
  constructor
  · intro chain
    refine ⟨chain.run_place 0 (Nat.succ_pos _), ?_, ?_, ?_, chain.ended⟩
    · simpa using chain.shorter 0 (Nat.succ_pos _)
    · intro index inside
      exact chain.run_place (index + 1) (Nat.succ_lt_succ inside)
    · intro index inside
      exact chain.shorter (index + 1) (Nat.succ_lt_succ inside)
  · intro parts
    obtain ⟨matched, shorter, chain⟩ := parts
    refine ⟨?_, ?_, chain.ended⟩
    · intro index inside
      cases index with
      | zero => exact matched
      | succ index => exact chain.run_place index (Nat.lt_of_succ_lt_succ inside)
    · intro index inside
      cases index with
      | zero => simpa using shorter
      | succ index => exact chain.shorter index (Nat.lt_of_succ_lt_succ inside)

/-- The parser leaves no choice at any place, so there is only one chain. -/
theorem Chain.unique {left right : List (α × Input)} (chain : Chain parser input left)
    (other : Chain parser input right) : left = right := by
  induction left generalizing input right with
  | nil =>
      cases right with
      | nil => rfl
      | cons step steps =>
          obtain ⟨matched, shorter, _⟩ := chain_cons_iff.mp other
          rw [chain_nil_iff.mp chain _ _ matched] at shorter
          exact absurd shorter (Nat.lt_irrefl _)
  | cons step steps ih =>
      obtain ⟨matched, shorter, others⟩ := chain_cons_iff.mp chain
      cases right with
      | nil =>
          rw [chain_nil_iff.mp other _ _ matched] at shorter
          exact absurd shorter (Nat.lt_irrefl _)
      | cons otherStep otherSteps =>
          obtain ⟨otherMatched, _, otherOthers⟩ := chain_cons_iff.mp other
          obtain rfl : step = otherStep := Option.some.inj (matched.symm.trans otherMatched)
          rw [ih others otherOthers]

/-- Every step takes at least one character. -/
theorem Chain.length_le {steps : List (α × Input)} (chain : Chain parser input steps) :
    (place input steps steps.length).length + steps.length ≤ input.length := by
  induction steps generalizing input with
  | nil => exact Nat.le_refl _
  | cons step steps ih =>
      obtain ⟨_, shorter, others⟩ := chain_cons_iff.mp chain
      have after := ih others
      rw [List.length_cons, place_succ]
      omega

/-! ## Chains and repetitions -/

/-- A repetition reads the values of its chain and ends where the chain ends. -/
theorem repeats_iff_chain {values : List α} {rest : Input} :
    Repeats parser input values rest ↔
      ∃ steps, Chain parser input steps ∧ values = steps.map Prod.fst ∧
        rest = place input steps steps.length := by
  constructor
  · intro repeated
    induction repeated with
    | stop still => exact ⟨[], chain_nil_iff.mpr still, rfl, rfl⟩
    | @step input middle rest value values matched shorter _ ih =>
        obtain ⟨steps, chain, rfl, rfl⟩ := ih
        exact ⟨(value, middle) :: steps, chain_cons_iff.mpr ⟨matched, shorter, chain⟩, rfl, rfl⟩
  · intro parts
    obtain ⟨steps, chain, rfl, rfl⟩ := parts
    induction steps generalizing input with
    | nil => exact .stop (chain_nil_iff.mp chain)
    | cons step steps ih =>
        obtain ⟨matched, shorter, others⟩ := chain_cons_iff.mp chain
        exact .step matched shorter (ih others)

theorem exists_chain (parser : Parser α) (input : Input) : ∃ steps, Chain parser input steps := by
  obtain ⟨values, rest, repeated⟩ := exists_repeats parser input
  obtain ⟨steps, chain, _, _⟩ := repeats_iff_chain.mp repeated
  exact ⟨steps, chain⟩

theorem Chain.run_many {steps : List (α × Input)} (chain : Chain parser input steps) :
    parser.many.run input =
      some (steps.map Prod.fst, place input steps steps.length) :=
  run_many_eq_some_iff.mpr (repeats_iff_chain.mpr ⟨steps, chain, rfl, rfl⟩)

/-- Where a chain ends there is nothing more to repeat. -/
theorem Chain.nil_of_ended {steps : List (α × Input)} (chain : Chain parser input steps) :
    Chain parser (place input steps steps.length) [] :=
  ⟨fun _ inside => (nomatch inside), fun _ inside => (nomatch inside), chain.ended⟩

/-- A repetition matches everywhere, after finitely many calls. There is one chain from its text on;
it yields the values of that chain and the place where the chain ends. No more can be repeated
there. -/
theorem many_follows_chain (parser : Parser α) (input : Input) :
    ∃ steps, (∀ other, Chain parser input other ↔ other = steps) ∧
      steps.length ≤ input.length ∧
      parser.many.run input = some (steps.map Prod.fst, place input steps steps.length) ∧
      parser.many.run (place input steps steps.length) =
        some ([], place input steps steps.length) ∧
      Grammar.Evaluates (.many (.primitive (.custom parser))) .empty input
        (parser.many.run input) := by
  obtain ⟨steps, chain⟩ := exists_chain parser input
  refine ⟨steps, fun other => ?_, ?_, chain.run_many, chain.nil_of_ended.run_many, ?_⟩
  · exact ⟨fun same => same.unique chain, fun same => same ▸ chain⟩
  · exact Nat.le_trans (Nat.le_add_left _ _) chain.length_le
  · have guarded : (Grammar.many (.primitive (.custom parser)) : Grammar [] (List α)).Guarded 0 :=
      True.intro
    exact guarded.evaluates Grammar.settled_empty

/-! ## Lists -/

/-- A list is an item and a repetition of separators with items, or nothing. -/
theorem sepBy_eq_many (item : Parser α) (separator : Parser β) :
    item.sepBy separator =
      ((item.pair (separator.seqRight item).many).map fun (first, others) =>
        first :: others).orElse (succeed []) := by
  ext1 input
  cases ran : item.run input with
  | none => simp only [sepBy, orElse, map, pair, succeed, ran]
  | some outcome =>
      obtain ⟨first, middle⟩ := outcome
      obtain ⟨others, rest, repeated⟩ := exists_repeats (separator.seqRight item) middle
      have listed := run_sepBy_eq_some_iff.mpr (.inr ⟨first, middle, others, ran, repeated, rfl⟩)
      have matched := run_many_eq_some_iff.mpr repeated
      simp only [listed, orElse, map, pair, ran, matched]

/-- Why a list ends where it does: no separator can be read there, or no item after it, or neither
reads anything. -/
def EndsList (item : Parser α) (separator : Parser β) (rest : Input) : Prop :=
  separator.run rest = none ∨
    (∃ skipped next, separator.run rest = some (skipped, next) ∧ item.run next = none) ∨
    ∃ skipped value, separator.run rest = some (skipped, rest) ∧ item.run rest = some (value, rest)

/-- Neither part gives text back, so a round that reads nothing is made of two such parts. -/
theorem endsList_of_ended {item : Parser α} {separator : Parser β} {rest : Input}
    (ended : (separator.seqRight item).run rest = none ∨
      ∃ value, (separator.seqRight item).run rest = some (value, rest)) :
    EndsList item separator rest := by
  cases separated : separator.run rest with
  | none => exact .inl separated
  | some outcome =>
      obtain ⟨skipped, next⟩ := outcome
      rcases ended with refused | ⟨value, still⟩
      · simp only [seqRight, separated] at refused
        exact .inr (.inl ⟨skipped, next, separated, refused⟩)
      · simp only [seqRight, separated] at still
        obtain rfl : next = rest :=
          Input.eq_of_suffix_of_length_le (separator.run_suffix separated) (length_le_of_run still)
        exact .inr (.inr ⟨skipped, value, separated, still⟩)

/-- A list agrees with its description by a repetition. Either its first item cannot be read, and it
is empty and reads nothing; or it is an item and a number of rounds, each of them a separator with
an item behind it, and no further round is possible where the last one ended. -/
theorem sepBy_leaves_separator (item : Parser α) (separator : Parser β) (input : Input) :
    (item.sepBy separator).run input =
        (((item.pair (separator.seqRight item).many).map fun (first, others) =>
          first :: others).orElse (succeed [])).run input ∧
      (item.run input = none ∧ (item.sepBy separator).run input = some ([], input) ∨
        ∃ first middle rounds, item.run input = some (first, middle) ∧
          (item.sepBy separator).run input =
            some (first :: rounds.map Prod.fst, place middle rounds rounds.length) ∧
          EndsList item separator (place middle rounds rounds.length) ∧
          ∀ (index : Nat) (inside : index < rounds.length), ∃ skipped next,
            separator.run (place middle rounds index) = some (skipped, next) ∧
              item.run next = some rounds[index]) := by
  refine ⟨by rw [sepBy_eq_many], ?_⟩
  cases ran : item.run input with
  | none => exact .inl ⟨rfl, run_sepBy_eq_some_iff.mpr (.inl ⟨ran, rfl, rfl⟩)⟩
  | some outcome =>
      obtain ⟨first, middle⟩ := outcome
      obtain ⟨rounds, chain⟩ := exists_chain (separator.seqRight item) middle
      have repeated := repeats_iff_chain.mpr ⟨rounds, chain, rfl, rfl⟩
      have listed := run_sepBy_eq_some_iff.mpr (.inr ⟨first, middle, _, ran, repeated, rfl⟩)
      refine .inr ⟨first, middle, rounds, rfl, listed, endsList_of_ended chain.ended, ?_⟩
      intro index inside
      exact run_seqRight_eq_some_iff.mp (chain.run_place index inside)

/-- Between two letters the comma is read, and the one before a parenthesis is left. -/
theorem sepBy_leaves_separator_comma :
    ∃ skipped next step, (character ',').run (Input.ofString ",b,)") = some (skipped, next) ∧
      (satisfy Char.isAlpha).run next = some step ∧
      EndsList (satisfy Char.isAlpha) (character ',') (Input.ofString ",)") := by
  have firstRead : (satisfy Char.isAlpha).run (Input.ofString "a,b,)") =
      some ('a', Input.ofString ",b,)") := by
    decide +kernel
  have listRead : ((satisfy Char.isAlpha).sepBy (character ',')).run (Input.ofString "a,b,)") =
      some (['a', 'b'], Input.ofString ",)") := by
    decide +kernel
  rcases (sepBy_leaves_separator (satisfy Char.isAlpha) (character ',')
    (Input.ofString "a,b,)")).2 with ⟨refused, _⟩ | ⟨first, middle, rounds, ran, listed, ended, each⟩
  · cases refused.symm.trans firstRead
  · obtain ⟨rfl, rfl⟩ := Prod.mk.inj (Option.some.inj (ran.symm.trans firstRead))
    obtain ⟨values, rest⟩ := Prod.mk.inj (Option.some.inj (listed.symm.trans listRead))
    have inside : 0 < rounds.length := by
      have counted := congrArg List.length values
      simp only [List.length_cons, List.length_map, List.length_nil] at counted
      omega
    obtain ⟨skipped, next, separated, followed⟩ := each 0 inside
    rw [place_zero] at separated
    exact ⟨skipped, next, _, separated, followed, rest ▸ ended⟩

end PuzzleKit.Parser
