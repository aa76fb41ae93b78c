import PuzzleKit.Proofs.Grammar.Termination

/-!
# How deep parentheses nest

The grammar of nested parentheses calls itself once for every opening parenthesis. A level that is
not closed turns into an empty match of depth zero, and the level around it then looks for its own
closing parenthesis in the wrong place. So either all opening parentheses at the front of a text
are closed right after the last of them, or none of them is read.
-/

set_option autoImplicit false

namespace PuzzleKit.Grammar

/-- The nested parentheses at the front of a text: how deep they are, and the text after them. There
are none unless every opening parenthesis at the front is closed right after the last of them. -/
def nested (input : Input) : Nat × Input :=
  let depth := (input.chars.takeWhile (· == '(')).length
  if List.replicate depth ')' <+: input.chars.drop depth then
    (depth, input.drop (2 * depth))
  else
    (0, input)

example : nested (Input.ofString "((()))x") = (3, Input.ofString "x") := by decide

example : nested (Input.ofString "(()") = (0, Input.ofString "(()") := by decide

/-- One level of the recursion: the body is run where its own name stands for it. -/
def Nests (input : Input) (found : Nat × Input) : Prop :=
  Evaluates nestingBody (.bind nestingBody .empty) input (some found)

/-! ## One level -/

theorem nests_of_run_eq_none {input : Input}
    (unopened : (Parser.character '(').run input = none) : Nests input (0, input) :=
  .orElseSecond (.mapNone (.seqLeftFirst (.seqRightFirst (.primitive unopened)))) (.primitive rfl)

section Level

variable {input inside close : Input} {depth : Nat}

theorem evaluates_inside (opened : (Parser.character '(').run input = some ('(', inside))
    (nests : Nests inside (depth, close)) :
    Evaluates (.seqRight (.primitive (.character '(')) (.reference .innermost))
      (.bind nestingBody .empty) input (some (depth, close)) :=
  .seqRightSecond (.primitive opened) (.innermost nests)

theorem Nests.closed (opened : (Parser.character '(').run input = some ('(', inside))
    (nests : Nests inside (depth, close)) {rest : Input}
    (closed : (Parser.character ')').run close = some (')', rest)) :
    Nests input (depth + 1, rest) :=
  .orElseFirst (.mapSome (.seqLeftBoth (evaluates_inside opened nests) (.primitive closed)))

/-- A level that is not closed reads nothing at all, whatever was closed inside of it. -/
theorem Nests.unclosed (opened : (Parser.character '(').run input = some ('(', inside))
    (nests : Nests inside (depth, close))
    (unclosed : (Parser.character ')').run close = none) : Nests input (0, input) :=
  .orElseSecond (.mapNone (.seqLeftSecond (evaluates_inside opened nests) (.primitive unclosed)))
    (.primitive rfl)

end Level

/-! ## All levels -/

theorem replicate_succ_isPrefix_append_iff (depth : Nat) (rest : List Char) :
    List.replicate (depth + 1) ')' <+: List.replicate depth ')' ++ rest ↔
      rest.head? = some ')' := by
  rw [List.replicate_succ', List.prefix_append_right_inj]
  cases rest with
  | nil => simp
  | cons char rest => simp [eq_comm]

/-- The induction is on the opening parentheses, with everything after them fixed. What the inner
levels do with it is known whether or not they can be closed. If they read nothing, a further
parenthesis is opened where one should close. -/
theorem nests_replicate_append (depth : Nat) {tail : List Char}
    (last : (Parser.character '(').run (Input.ofChars tail) = none) :
    Nests (Input.ofChars (List.replicate depth '(' ++ tail))
      (if List.replicate depth ')' <+: tail then (depth, Input.ofChars (tail.drop depth))
        else (0, Input.ofChars (List.replicate depth '(' ++ tail))) := by
  induction depth with
  | zero => simpa using nests_of_run_eq_none last
  | succ depth ih =>
      rw [List.replicate_succ, List.cons_append]
      have opened := Parser.run_character '(' (List.replicate depth '(' ++ tail)
      by_cases inner : List.replicate depth ')' <+: tail
      · obtain ⟨rest, rfl⟩ := inner
        rw [if_pos (List.prefix_append _ _)] at ih
        have dropped : (List.replicate depth ')' ++ rest).drop depth = rest := by simp
        rw [dropped] at ih
        simp only [replicate_succ_isPrefix_append_iff]
        cases rest with
        | nil => exact ih.unclosed opened (Parser.run_satisfy_eq_none (by simp))
        | cons char rest =>
            by_cases closing : char = ')'
            · subst char
              have after : (List.replicate depth ')' ++ ')' :: rest).drop (depth + 1) = rest := by
                simp [List.drop_append]
              rw [if_pos List.head?_cons, after]
              exact ih.closed opened (Parser.run_character ')' rest)
            · rw [if_neg (by simpa using closing)]
              exact ih.unclosed opened (Parser.run_satisfy_eq_none (by simpa using closing))
      · have outer : ¬ List.replicate (depth + 1) ')' <+: tail := fun closed =>
          inner ((List.prefix_append _ [')']).trans (List.replicate_succ' ▸ closed))
        rw [if_neg inner] at ih
        rw [if_neg outer]
        refine ih.unclosed opened (Parser.run_satisfy_eq_none ?_)
        cases depth with
        | zero => exact absurd List.nil_prefix inner
        | succ depth => simp [List.replicate_succ]

theorem nests_nested (input : Input) : Nests input (nested input) := by
  let front := input.chars.takeWhile (· == '(')
  let tail := input.chars.dropWhile (· == '(')
  have split : front ++ tail = input.chars := List.takeWhile_append_dropWhile
  have frontEq : front = List.replicate front.length '(' := by
    refine List.eq_replicate_of_mem fun char member => ?_
    simpa using List.all_eq_true.mp List.all_takeWhile char member
  have tailEq : input.chars.drop front.length = tail := by
    rw [← split, List.drop_left]
  have restEq : input.drop (2 * front.length) = Input.ofChars (tail.drop front.length) := by
    apply Input.ext
    rw [Input.chars_drop, Input.chars_ofChars, ← tailEq, List.drop_drop, Nat.two_mul]
  have last : (Parser.character '(').run (Input.ofChars tail) = none := by
    refine Parser.run_satisfy_eq_none fun char found => ?_
    have stopped := List.head?_dropWhile_not (· == '(') input.chars
    rwa [show tail.head? = some char from found] at stopped
  have nests := nests_replicate_append front.length last
  rw [← frontEq, split, Input.ofChars_chars, ← restEq, ← tailEq] at nests
  exact nests

/-- Parentheses are read exactly if they nest: by the parser of the grammar and call by call. -/
theorem nesting_reads_nested (input : Input) :
    nesting.toParser.run input = some (nested input) ∧
      ∀ outcome, Evaluates nesting .empty input outcome ↔ outcome = some (nested input) := by
  have evaluated : Evaluates nesting .empty input (some (nested input)) :=
    .lazy (nests_nested input)
  refine ⟨?_, fun outcome => ⟨fun other => other.unique evaluated, fun same => same ▸ evaluated⟩⟩
  exact (nesting_guarded.evaluates settled_empty).unique evaluated

end PuzzleKit.Grammar
