import PuzzleKit.Parser.Grammar
import PuzzleKit.Proofs.Parser.Consumption

/-!
# Guarded grammars

A grammar is guarded if it cannot come back to a name before something was read. What may be read
without a character is estimated from the grammar alone, value by value: a part that needs a
character for the value in question guards all that comes after it. The estimate takes no account
of what a reference stands for, and it never calls a grammar consuming that is not.
-/

set_option autoImplicit false

namespace PuzzleKit

/-- How many names are further in than the given one. -/
def Name.index {scope : List Type} {α : Type} : Name scope α → Nat
  | .innermost => 0
  | .outer name => name.index + 1

/-- The values that a primitive can yield without reading anything. -/
def Primitive.Nullable {α : Type} : Primitive α → α → Prop
  | .item, _ => False
  | .grapheme, _ => False
  | .endOfInput, _ => True
  | .satisfy _, _ => False
  | .character _, _ => False
  | .string target, _ => target = ""
  | .newline, _ => False
  | .endOfLine, _ => True
  | .whitespace, text => text = ""
  | .digit, _ => False
  | .natural, _ => False
  | .integer, _ => False
  | .double, _ => False
  | .boolean, _ => False
  | .succeed value, other => other = value
  | .fail, _ => False
  | .custom parser, value => ∃ input, parser.run input = some (value, input)

theorem Primitive.nullable_of_run {α : Type} {leaf : Primitive α} {input rest : Input} {value : α}
    (found : leaf.parser.run input = some (value, rest)) (unread : input.length ≤ rest.length) :
    leaf.Nullable value := by
  have still : ¬ Parser.Consumes leaf.parser := fun consumes =>
    absurd (consumes found) (Nat.not_lt_of_le unread)
  cases leaf with
  | item => exact still Parser.item_consumes
  | grapheme => exact still Parser.grapheme_consumes
  | endOfInput => exact True.intro
  | satisfy accepts => exact still (Parser.satisfy_consumes accepts)
  | character expected => exact still (Parser.satisfy_consumes _)
  | string target =>
      by_cases empty : target = ""
      · exact empty
      · exact absurd (Parser.string_consumes empty) still
  | newline => exact still (Parser.satisfy_consumes _)
  | endOfLine => exact True.intro
  | whitespace =>
      have read : ((Parser.many (Parser.satisfy Text.isWhiteSpace)).map String.ofList).run input =
          some (value, rest) := found
      obtain ⟨chars, repeated, rfl⟩ := Parser.run_map_eq_some_iff.mp read
      rw [(Parser.run_many_eq_some_iff.mp repeated).eq_nil_of_length_le unread]
      rfl
  | digit => exact still Parser.digit_consumes
  | natural => exact still Parser.natural_consumes
  | integer => exact still Parser.integer_consumes
  | double => exact still Parser.double_consumes
  | boolean => exact still Parser.boolean_consumes
  | succeed result => cases found; rfl
  | fail => cases found
  | custom parser =>
      have same := Input.eq_of_suffix_of_length_le (parser.run_suffix found) unread
      exact ⟨input, same ▸ found⟩

namespace Grammar

variable {scope : List Type} {α : Type}

/-- The values that a grammar may yield without reading anything. A reference may yield any value;
a repetition that reads nothing yields no values. -/
def Nullable {scope : List Type} {α : Type} : Grammar scope α → α → Prop
  | primitive leaf, value => leaf.Nullable value
  | reference _, _ => True
  | lazy body, value => body.Nullable value
  | map grammar transform, image => ∃ value, grammar.Nullable value ∧ transform value = image
  | filterMap grammar transform, image =>
      ∃ value, grammar.Nullable value ∧ transform value = some image
  | bind grammar next, image => ∃ value, grammar.Nullable value ∧ (next value).Nullable image
  | orElse first second, value => first.Nullable value ∨ second.Nullable value
  | firstOf _ choice, value => ∃ index, (choice index).Nullable value
  | optional grammar, value => value = none ∨ ∃ found, grammar.Nullable found ∧ value = some found
  | pair first second, value => first.Nullable value.1 ∧ second.Nullable value.2
  | seqLeft first second, value => first.Nullable value ∧ ∃ skipped, second.Nullable skipped
  | seqRight first second, value => (∃ skipped, first.Nullable skipped) ∧ second.Nullable value
  | many _, values => values = []
  | sepBy item _, values => values = [] ∨ ∃ value, item.Nullable value ∧ values = [value]

/-- Nothing is overlooked: a run that leaves all of its text yields such a value, whatever the
names in scope stand for. -/
theorem nullable_of_run {grammar : Grammar scope α} {environment : Environment scope}
    {input rest : Input} {value : α}
    (found : (grammar.parser environment).run input = some (value, rest))
    (unread : input.length ≤ rest.length) : grammar.Nullable value := by
  induction grammar generalizing input rest with
  | primitive leaf => exact Primitive.nullable_of_run found unread
  | reference name => exact True.intro
  | lazy body ih => exact ih found unread
  | map grammar transform ih =>
      obtain ⟨value, matched, same⟩ := Parser.run_map_eq_some_iff.mp found
      exact ⟨value, ih matched unread, same⟩
  | filterMap grammar transform ih =>
      obtain ⟨value, matched, accepted⟩ := Parser.run_filterMap_eq_some_iff.mp found
      exact ⟨value, ih matched unread, accepted⟩
  | bind grammar next ih nextIH =>
      obtain ⟨value, middle, matched, followed⟩ := Parser.run_bind_eq_some_iff.mp found
      have first := Parser.length_le_of_run matched
      have second := Parser.length_le_of_run followed
      exact ⟨value, ih matched (by omega), nextIH value followed (by omega)⟩
  | orElse first second firstIH secondIH =>
      rcases Parser.run_orElse_eq_some_iff.mp found with matched | ⟨_, matched⟩
      · exact .inl (firstIH matched unread)
      · exact .inr (secondIH matched unread)
  | firstOf count choice ih =>
      obtain ⟨index, _, matched⟩ := Parser.run_firstOf_eq_some_iff.mp found
      exact ⟨index, ih index matched unread⟩
  | optional grammar ih =>
      rcases Parser.run_optional_eq_some_iff.mp found with ⟨value, matched, same⟩ | ⟨_, none, _⟩
      · exact .inr ⟨value, ih matched unread, same⟩
      · exact .inl none
  | pair first second firstIH secondIH =>
      obtain ⟨middle, matched, followed⟩ := Parser.run_pair_eq_some_iff.mp found
      have first := Parser.length_le_of_run matched
      have second := Parser.length_le_of_run followed
      exact ⟨firstIH matched (by omega), secondIH followed (by omega)⟩
  | seqLeft first second firstIH secondIH =>
      obtain ⟨middle, skipped, matched, followed⟩ := Parser.run_seqLeft_eq_some_iff.mp found
      have first := Parser.length_le_of_run matched
      have second := Parser.length_le_of_run followed
      exact ⟨firstIH matched (by omega), skipped, secondIH followed (by omega)⟩
  | seqRight first second firstIH secondIH =>
      obtain ⟨skipped, middle, matched, followed⟩ := Parser.run_seqRight_eq_some_iff.mp found
      have first := Parser.length_le_of_run matched
      have second := Parser.length_le_of_run followed
      exact ⟨⟨skipped, firstIH matched (by omega)⟩, secondIH followed (by omega)⟩
  | many grammar ih =>
      exact (Parser.run_many_eq_some_iff.mp found).eq_nil_of_length_le unread
  | sepBy item separator itemIH separatorIH =>
      rcases Parser.run_sepBy_eq_some_iff.mp found with
        ⟨_, none, _⟩ | ⟨value, middle, others, matched, repeated, rfl⟩
      · exact .inl none
      · have first := Parser.length_le_of_run matched
        have second := Input.length_le_of_suffix repeated.suffix
        rw [repeated.eq_nil_of_length_le (by omega)]
        exact .inr ⟨value, itemIH matched (by omega), rfl⟩

/-- On every path from the description of a name to a reference to it something is read. Nothing
need have been read since the `pending` innermost names were bound, so that those may not be
referred to yet. What follows a part that may yield a value without reading anything stands under
the same condition as that part; behind any other part nothing is pending. -/
def Guarded {scope : List Type} {α : Type} : Grammar scope α → Nat → Prop
  | primitive _, _ => True
  | reference name, pending => pending ≤ name.index
  | lazy body, pending => body.Guarded (pending + 1)
  | map grammar _, pending => grammar.Guarded pending
  | filterMap grammar _, pending => grammar.Guarded pending
  | bind grammar next, pending =>
      grammar.Guarded pending ∧
        ∀ value, (next value).Guarded 0 ∧ (grammar.Nullable value → (next value).Guarded pending)
  | orElse first second, pending => first.Guarded pending ∧ second.Guarded pending
  | firstOf _ choice, pending => ∀ index, (choice index).Guarded pending
  | optional grammar, pending => grammar.Guarded pending
  | pair first second, pending =>
      first.Guarded pending ∧ second.Guarded 0 ∧
        ∀ value, first.Nullable value → second.Guarded pending
  | seqLeft first second, pending =>
      first.Guarded pending ∧ second.Guarded 0 ∧
        ∀ value, first.Nullable value → second.Guarded pending
  | seqRight first second, pending =>
      first.Guarded pending ∧ second.Guarded 0 ∧
        ∀ value, first.Nullable value → second.Guarded pending
  | many grammar, pending => grammar.Guarded pending
  | sepBy item separator, pending =>
      item.Guarded pending ∧ separator.Guarded 0 ∧
        ∀ value, item.Nullable value → separator.Guarded pending

theorem Guarded.mono {grammar : Grammar scope α} {pending fewer : Nat}
    (guarded : grammar.Guarded pending) (le : fewer ≤ pending) : grammar.Guarded fewer := by
  induction grammar generalizing pending fewer with
  | primitive leaf => exact True.intro
  | reference name => exact Nat.le_trans le guarded
  | lazy body ih => exact ih guarded (Nat.succ_le_succ le)
  | map grammar transform ih => exact ih guarded le
  | filterMap grammar transform ih => exact ih guarded le
  | bind grammar next ih nextIH =>
      refine ⟨ih guarded.1 le, fun value => ⟨(guarded.2 value).1, fun nullable => ?_⟩⟩
      exact nextIH value ((guarded.2 value).2 nullable) le
  | orElse first second firstIH secondIH =>
      exact ⟨firstIH guarded.1 le, secondIH guarded.2 le⟩
  | firstOf count choice ih => exact fun index => ih index (guarded index) le
  | optional grammar ih => exact ih guarded le
  | pair first second firstIH secondIH
  | seqLeft first second firstIH secondIH
  | seqRight first second firstIH secondIH
  | sepBy first second firstIH secondIH =>
      obtain ⟨firstGuarded, after, still⟩ := guarded
      exact ⟨firstIH firstGuarded le, after, fun value nullable =>
        secondIH (still value nullable) le⟩
  | many grammar ih => exact ih guarded le

/-- No reference occurs in the grammar. Names may still be bound in it. -/
def ReferenceFree {scope : List Type} {α : Type} : Grammar scope α → Prop
  | primitive _ => True
  | reference _ => False
  | lazy body => body.ReferenceFree
  | map grammar _ => grammar.ReferenceFree
  | filterMap grammar _ => grammar.ReferenceFree
  | bind grammar next => grammar.ReferenceFree ∧ ∀ value, (next value).ReferenceFree
  | orElse first second => first.ReferenceFree ∧ second.ReferenceFree
  | firstOf _ choice => ∀ index, (choice index).ReferenceFree
  | optional grammar => grammar.ReferenceFree
  | pair first second => first.ReferenceFree ∧ second.ReferenceFree
  | seqLeft first second => first.ReferenceFree ∧ second.ReferenceFree
  | seqRight first second => first.ReferenceFree ∧ second.ReferenceFree
  | many grammar => grammar.ReferenceFree
  | sepBy item separator => item.ReferenceFree ∧ separator.ReferenceFree

theorem ReferenceFree.guarded {grammar : Grammar scope α} (free : grammar.ReferenceFree)
    (pending : Nat) : grammar.Guarded pending := by
  induction grammar generalizing pending with
  | primitive leaf => exact True.intro
  | reference name => exact absurd free id
  | lazy body ih => exact ih free (pending + 1)
  | map grammar transform ih => exact ih free pending
  | filterMap grammar transform ih => exact ih free pending
  | bind grammar next ih nextIH =>
      exact ⟨ih free.1 pending, fun value =>
        ⟨nextIH value (free.2 value) 0, fun _ => nextIH value (free.2 value) pending⟩⟩
  | orElse first second firstIH secondIH =>
      exact ⟨firstIH free.1 pending, secondIH free.2 pending⟩
  | firstOf count choice ih => exact fun index => ih index (free index) pending
  | optional grammar ih => exact ih free pending
  | pair first second firstIH secondIH
  | seqLeft first second firstIH secondIH
  | seqRight first second firstIH secondIH
  | sepBy first second firstIH secondIH =>
      exact ⟨firstIH free.1 pending, secondIH free.2 0, fun _ _ => secondIH free.2 pending⟩
  | many grammar ih => exact ih free pending

/-- What `nesting` says about itself: `'(' nesting ')'`, or nothing. -/
def nestingBody : Grammar [Nat] Nat :=
  .orElse
    (.map
      (.seqLeft
        (.seqRight (.primitive (.character '(')) (.reference .innermost))
        (.primitive (.character ')')))
      (· + 1))
    (.primitive (.succeed 0))

/-- How deep parentheses nest. -/
def nesting : Grammar [] Nat :=
  .lazy nestingBody

/-- An opening parenthesis is read before every reference. -/
theorem nesting_guarded : nesting.Guarded 0 := by
  have behind : ∀ char, (.primitive (.character '(') : Grammar [Nat] Char).Nullable char →
      (.reference .innermost : Grammar [Nat] Nat).Guarded 1 :=
    fun _ nullable => absurd nullable id
  exact ⟨⟨⟨True.intro, Nat.zero_le _, behind⟩, True.intro, fun _ _ => True.intro⟩, True.intro⟩

end Grammar

end PuzzleKit
