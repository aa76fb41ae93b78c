import Mathlib.Logic.Equiv.Prod
import PuzzleKit.Parser.Basic

/-!
# The algebra of parsers

Parsers form a monad under `succeed` and `bind`, and a monoid under `orElse` and `fail`; a common
front of two alternatives can be read once. Each combinator runs on its own, so its definition by
`bind`, `succeed` and `fail` is a law as well, and the other laws of sequences follow from it.
-/

set_option autoImplicit false

namespace PuzzleKit.Parser

variable {α β γ : Type}

/-! ## Sequences -/

theorem succeed_bind (value : α) (next : α → Parser β) : (succeed value).bind next = next value :=
  rfl

theorem bind_succeed (parser : Parser α) : parser.bind succeed = parser := by
  ext1 input
  simp only [bind]
  cases parser.run input <;> rfl

theorem bind_assoc (parser : Parser α) (next : α → Parser β) (last : β → Parser γ) :
    (parser.bind next).bind last = parser.bind fun value => (next value).bind last := by
  ext1 input
  simp only [bind]
  cases parser.run input <;> rfl

/-! ## Combinators through `bind` -/

theorem map_eq_bind (parser : Parser α) (transform : α → β) :
    parser.map transform = parser.bind fun value => succeed (transform value) := by
  ext1 input
  simp only [map, bind]
  cases parser.run input <;> rfl

theorem filterMap_eq_bind (parser : Parser α) (transform : α → Option β) :
    parser.filterMap transform = parser.bind fun value =>
      match transform value with
      | some image => succeed image
      | none => fail := by
  ext1 input
  simp only [filterMap, bind]
  cases parser.run input with
  | none => rfl
  | some outcome =>
      obtain ⟨value, rest⟩ := outcome
      simp only
      cases transform value <;> rfl

theorem pair_eq_bind (first : Parser α) (second : Parser β) :
    first.pair second = first.bind fun left => second.bind fun right => succeed (left, right) := by
  ext1 input
  simp only [pair, bind]
  cases first.run input with
  | none => rfl
  | some outcome =>
      obtain ⟨left, middle⟩ := outcome
      simp only
      cases second.run middle <;> rfl

theorem seqLeft_eq_bind (first : Parser α) (second : Parser β) :
    first.seqLeft second = first.bind fun value => second.bind fun _ => succeed value := by
  ext1 input
  simp only [seqLeft, bind]
  cases first.run input with
  | none => rfl
  | some outcome =>
      obtain ⟨value, middle⟩ := outcome
      simp only
      cases second.run middle <;> rfl

theorem seqRight_eq_bind (first : Parser α) (second : Parser β) :
    first.seqRight second = first.bind fun _ => second :=
  rfl

theorem map_map (parser : Parser α) (transform : α → β) (again : β → γ) :
    (parser.map transform).map again = parser.map (again ∘ transform) := by
  simp only [map_eq_bind, bind_assoc, succeed_bind, Function.comp_apply]

theorem filterMap_map (parser : Parser α) (transform : α → β) (select : β → Option γ) :
    (parser.map transform).filterMap select = parser.filterMap (select ∘ transform) := by
  simp only [map_eq_bind, filterMap_eq_bind, bind_assoc, succeed_bind, Function.comp_apply]

theorem pair_assoc (first : Parser α) (second : Parser β) (third : Parser γ) :
    ((first.pair second).pair third).map (Equiv.prodAssoc α β γ) =
      first.pair (second.pair third) := by
  simp only [map_eq_bind, pair_eq_bind, bind_assoc, succeed_bind, Equiv.prodAssoc_apply]

/-! ## Alternatives -/

theorem fail_orElse (parser : Parser α) : fail.orElse parser = parser :=
  rfl

theorem orElse_fail (parser : Parser α) : parser.orElse fail = parser := by
  ext1 input
  simp only [orElse]
  cases parser.run input <;> rfl

theorem orElse_assoc (first second third : Parser α) :
    (first.orElse second).orElse third = first.orElse (second.orElse third) := by
  ext1 input
  simp only [orElse]
  cases first.run input <;> rfl

theorem orElse_self (parser : Parser α) : parser.orElse parser = parser := by
  ext1 input
  simp only [orElse]
  cases parser.run input <;> rfl

/-- A common front may be read once: when it does not match, neither alternative does, and when it
does, both go on from the same place. -/
theorem bind_orElse_bind (parser : Parser α) (first second : α → Parser β) :
    (parser.bind first).orElse (parser.bind second) =
      parser.bind fun value => (first value).orElse (second value) := by
  ext1 input
  simp only [bind, orElse]
  cases parser.run input <;> rfl

theorem map_orElse_map (first second : Parser α) (transform : α → β) :
    (first.map transform).orElse (second.map transform) =
      (first.orElse second).map transform := by
  ext1 input
  simp only [map, orElse]
  cases first.run input <;> rfl

theorem pair_orElse_pair (front : Parser α) (first second : Parser β) :
    (front.pair first).orElse (front.pair second) = front.pair (first.orElse second) := by
  simp only [pair_eq_bind, bind_orElse_bind, ← map_eq_bind, map_orElse_map]

/-- The laws of parsers, as equal results on every input: equal values with equal rests, or no
match on either side. `succeed` and `bind` are a monad, and `fail` and `orElse` an idempotent
monoid; a common front can be factored out, and pairs can be regrouped; the other combinators are
what `bind`, `succeed` and `fail` make of their parts. Every parser here, also one that a
continuation gives, returns an end of its input (`Parser.run_suffix`). -/
theorem run_laws (input : Input) (value : α) (first second third : Parser α) (left right : Parser β)
    (last : Parser γ) (next : α → Parser β) (final : β → Parser γ) (transform : α → β)
    (again : β → γ) (select : α → Option β) :
    ((succeed value).bind next).run input = (next value).run input ∧
    (first.bind succeed).run input = first.run input ∧
    ((first.bind next).bind final).run input =
      (first.bind fun value => (next value).bind final).run input ∧
    ((first.map transform).map again).run input = (first.map (again ∘ transform)).run input ∧
    (fail.orElse first).run input = first.run input ∧
    (first.orElse fail).run input = first.run input ∧
    ((first.orElse second).orElse third).run input =
      (first.orElse (second.orElse third)).run input ∧
    (first.orElse first).run input = first.run input ∧
    ((first.pair left).orElse (first.pair right)).run input =
      (first.pair (left.orElse right)).run input ∧
    (((first.pair left).pair last).map (Equiv.prodAssoc α β γ)).run input =
      (first.pair (left.pair last)).run input ∧
    (first.map transform).run input =
      (first.bind fun value => succeed (transform value)).run input ∧
    (first.filterMap select).run input =
      (first.bind fun value =>
        match select value with
        | some image => succeed image
        | none => fail).run input ∧
    (first.pair left).run input =
      (first.bind fun value => left.bind fun other => succeed (value, other)).run input ∧
    (first.seqLeft left).run input =
      (first.bind fun value => left.bind fun _ => succeed value).run input ∧
    (first.seqRight left).run input = (first.bind fun _ => left).run input := by
  refine ⟨?_, ?_, ?_, ?_, ?_, ?_, ?_, ?_, ?_, ?_, ?_, ?_, ?_, ?_, ?_⟩
  · rw [succeed_bind]
  · rw [bind_succeed]
  · rw [bind_assoc]
  · rw [map_map]
  · rw [fail_orElse]
  · rw [orElse_fail]
  · rw [orElse_assoc]
  · rw [orElse_self]
  · rw [pair_orElse_pair]
  · rw [pair_assoc]
  · rw [map_eq_bind]
  · rw [filterMap_eq_bind]
  · rw [pair_eq_bind]
  · rw [seqLeft_eq_bind]
  · rw [seqRight_eq_bind]

end PuzzleKit.Parser
