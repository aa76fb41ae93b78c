import PuzzleKit.Parser.Grammar
import PuzzleKit.Proofs.Text.Cut

/-!
# Evaluation of grammars

How a grammar is run call by call. A reference runs the body of its name, however often that takes,
so not every grammar has an outcome on every text: an evaluation is a finite tree of calls. The
texts at the two ends of a repeated match are compared by their number of bytes.
-/

set_option autoImplicit false

namespace PuzzleKit

/-- The bodies of the names in scope, each described in the names that were in scope around it. -/
inductive Bindings : List Type → Type 1 where
  | empty : Bindings []
  | bind {α : Type} {scope : List Type} (body : Grammar (α :: scope) α)
      (outer : Bindings scope) : Bindings (α :: scope)

namespace Grammar

/-- A grammar ends with the given outcome on a text: with a value and the text after it, or with
no match. -/
inductive Evaluates : {scope : List Type} → {α : Type} → Grammar scope α → Bindings scope →
    Input → Option (α × Input) → Prop where
  | primitive {scope : List Type} {α : Type} {leaf : Primitive α} {bindings : Bindings scope}
      {input : Input} {outcome : Option (α × Input)} :
      leaf.parser.run input = outcome → Evaluates (.primitive leaf) bindings input outcome
  | innermost {scope : List Type} {α : Type} {body : Grammar (α :: scope) α}
      {outer : Bindings scope} {input : Input} {outcome : Option (α × Input)} :
      Evaluates body (.bind body outer) input outcome →
      Evaluates (.reference .innermost) (.bind body outer) input outcome
  | outer {scope : List Type} {α β : Type} {name : Name scope α} {body : Grammar (β :: scope) β}
      {outer : Bindings scope} {input : Input} {outcome : Option (α × Input)} :
      Evaluates (.reference name) outer input outcome →
      Evaluates (.reference (.outer name)) (.bind body outer) input outcome
  | lazy {scope : List Type} {α : Type} {body : Grammar (α :: scope) α}
      {bindings : Bindings scope} {input : Input} {outcome : Option (α × Input)} :
      Evaluates body (.bind body bindings) input outcome →
      Evaluates (.lazy body) bindings input outcome
  | mapNone {scope : List Type} {α β : Type} {grammar : Grammar scope α} {transform : α → β}
      {bindings : Bindings scope} {input : Input} :
      Evaluates grammar bindings input none →
      Evaluates (.map grammar transform) bindings input none
  | mapSome {scope : List Type} {α β : Type} {grammar : Grammar scope α} {transform : α → β}
      {bindings : Bindings scope} {input rest : Input} {value : α} :
      Evaluates grammar bindings input (some (value, rest)) →
      Evaluates (.map grammar transform) bindings input (some (transform value, rest))
  | filterMapNone {scope : List Type} {α β : Type} {grammar : Grammar scope α}
      {transform : α → Option β} {bindings : Bindings scope} {input : Input} :
      Evaluates grammar bindings input none →
      Evaluates (.filterMap grammar transform) bindings input none
  | filterMapReject {scope : List Type} {α β : Type} {grammar : Grammar scope α}
      {transform : α → Option β} {bindings : Bindings scope} {input rest : Input} {value : α} :
      Evaluates grammar bindings input (some (value, rest)) → transform value = none →
      Evaluates (.filterMap grammar transform) bindings input none
  | filterMapSome {scope : List Type} {α β : Type} {grammar : Grammar scope α}
      {transform : α → Option β} {bindings : Bindings scope} {input rest : Input} {value : α}
      {image : β} :
      Evaluates grammar bindings input (some (value, rest)) → transform value = some image →
      Evaluates (.filterMap grammar transform) bindings input (some (image, rest))
  | bindNone {scope : List Type} {α β : Type} {grammar : Grammar scope α}
      {next : α → Grammar scope β} {bindings : Bindings scope} {input : Input} :
      Evaluates grammar bindings input none →
      Evaluates (.bind grammar next) bindings input none
  | bindSome {scope : List Type} {α β : Type} {grammar : Grammar scope α}
      {next : α → Grammar scope β} {bindings : Bindings scope} {input rest : Input} {value : α}
      {outcome : Option (β × Input)} :
      Evaluates grammar bindings input (some (value, rest)) →
      Evaluates (next value) bindings rest outcome →
      Evaluates (.bind grammar next) bindings input outcome
  | orElseFirst {scope : List Type} {α : Type} {first second : Grammar scope α}
      {bindings : Bindings scope} {input : Input} {found : α × Input} :
      Evaluates first bindings input (some found) →
      Evaluates (.orElse first second) bindings input (some found)
  | orElseSecond {scope : List Type} {α : Type} {first second : Grammar scope α}
      {bindings : Bindings scope} {input : Input} {outcome : Option (α × Input)} :
      Evaluates first bindings input none → Evaluates second bindings input outcome →
      Evaluates (.orElse first second) bindings input outcome
  | firstOfNone {scope : List Type} {α : Type} {count : Nat} {choice : Fin count → Grammar scope α}
      {bindings : Bindings scope} {input : Input} :
      (∀ index, Evaluates (choice index) bindings input none) →
      Evaluates (.firstOf count choice) bindings input none
  | firstOfSome {scope : List Type} {α : Type} {count : Nat} {choice : Fin count → Grammar scope α}
      {bindings : Bindings scope} {input : Input} {index : Fin count} {found : α × Input} :
      (∀ earlier < index, Evaluates (choice earlier) bindings input none) →
      Evaluates (choice index) bindings input (some found) →
      Evaluates (.firstOf count choice) bindings input (some found)
  | optionalNone {scope : List Type} {α : Type} {grammar : Grammar scope α}
      {bindings : Bindings scope} {input : Input} :
      Evaluates grammar bindings input none →
      Evaluates (.optional grammar) bindings input (some (none, input))
  | optionalSome {scope : List Type} {α : Type} {grammar : Grammar scope α}
      {bindings : Bindings scope} {input rest : Input} {value : α} :
      Evaluates grammar bindings input (some (value, rest)) →
      Evaluates (.optional grammar) bindings input (some (some value, rest))
  | pairFirst {scope : List Type} {α β : Type} {first : Grammar scope α} {second : Grammar scope β}
      {bindings : Bindings scope} {input : Input} :
      Evaluates first bindings input none →
      Evaluates (.pair first second) bindings input none
  | pairSecond {scope : List Type} {α β : Type} {first : Grammar scope α}
      {second : Grammar scope β} {bindings : Bindings scope} {input middle : Input} {left : α} :
      Evaluates first bindings input (some (left, middle)) →
      Evaluates second bindings middle none →
      Evaluates (.pair first second) bindings input none
  | pairBoth {scope : List Type} {α β : Type} {first : Grammar scope α} {second : Grammar scope β}
      {bindings : Bindings scope} {input middle rest : Input} {left : α} {right : β} :
      Evaluates first bindings input (some (left, middle)) →
      Evaluates second bindings middle (some (right, rest)) →
      Evaluates (.pair first second) bindings input (some ((left, right), rest))
  | seqLeftFirst {scope : List Type} {α β : Type} {first : Grammar scope α}
      {second : Grammar scope β} {bindings : Bindings scope} {input : Input} :
      Evaluates first bindings input none →
      Evaluates (.seqLeft first second) bindings input none
  | seqLeftSecond {scope : List Type} {α β : Type} {first : Grammar scope α}
      {second : Grammar scope β} {bindings : Bindings scope} {input middle : Input} {left : α} :
      Evaluates first bindings input (some (left, middle)) →
      Evaluates second bindings middle none →
      Evaluates (.seqLeft first second) bindings input none
  | seqLeftBoth {scope : List Type} {α β : Type} {first : Grammar scope α}
      {second : Grammar scope β} {bindings : Bindings scope} {input middle rest : Input} {left : α}
      {right : β} :
      Evaluates first bindings input (some (left, middle)) →
      Evaluates second bindings middle (some (right, rest)) →
      Evaluates (.seqLeft first second) bindings input (some (left, rest))
  | seqRightFirst {scope : List Type} {α β : Type} {first : Grammar scope α}
      {second : Grammar scope β} {bindings : Bindings scope} {input : Input} :
      Evaluates first bindings input none →
      Evaluates (.seqRight first second) bindings input none
  | seqRightSecond {scope : List Type} {α β : Type} {first : Grammar scope α}
      {second : Grammar scope β} {bindings : Bindings scope} {input middle : Input} {left : α}
      {outcome : Option (β × Input)} :
      Evaluates first bindings input (some (left, middle)) →
      Evaluates second bindings middle outcome →
      Evaluates (.seqRight first second) bindings input outcome
  | manyEnd {scope : List Type} {α : Type} {grammar : Grammar scope α} {bindings : Bindings scope}
      {input : Input} :
      Evaluates grammar bindings input none →
      Evaluates (.many grammar) bindings input (some ([], input))
  | manyEmpty {scope : List Type} {α : Type} {grammar : Grammar scope α}
      {bindings : Bindings scope} {input rest : Input} {value : α} :
      Evaluates grammar bindings input (some (value, rest)) →
      rest.byteLength = input.byteLength →
      Evaluates (.many grammar) bindings input (some ([], input))
  | manyStep {scope : List Type} {α : Type} {grammar : Grammar scope α} {bindings : Bindings scope}
      {input middle rest : Input} {value : α} {values : List α} :
      Evaluates grammar bindings input (some (value, middle)) →
      middle.byteLength ≠ input.byteLength →
      Evaluates (.many grammar) bindings middle (some (values, rest)) →
      Evaluates (.many grammar) bindings input (some (value :: values, rest))
  | sepByNone {scope : List Type} {α β : Type} {item : Grammar scope α}
      {separator : Grammar scope β} {bindings : Bindings scope} {input : Input} :
      Evaluates item bindings input none →
      Evaluates (.sepBy item separator) bindings input (some ([], input))
  | sepBySome {scope : List Type} {α β : Type} {item : Grammar scope α}
      {separator : Grammar scope β} {bindings : Bindings scope} {input middle rest : Input}
      {value : α} {values : List α} :
      Evaluates item bindings input (some (value, middle)) →
      Evaluates (.many (.seqRight separator item)) bindings middle (some (values, rest)) →
      Evaluates (.sepBy item separator) bindings input (some (value :: values, rest))

namespace Evaluates

variable {scope : List Type} {α : Type}

/-- The evaluations that an evaluation is made of, for the grammars whose values are compound. Their
evaluations cannot be taken apart directly: the type of the values does not determine the types of
the parts. -/
private def Parts : {scope : List Type} → {α : Type} → Grammar scope α → Bindings scope → Input →
    Option (α × Input) → Prop
  | _, _, .optional grammar, bindings, input, outcome =>
      (Evaluates grammar bindings input none ∧ outcome = some (none, input)) ∨
        ∃ value rest, Evaluates grammar bindings input (some (value, rest)) ∧
          outcome = some (some value, rest)
  | _, _, .pair first second, bindings, input, outcome =>
      (Evaluates first bindings input none ∧ outcome = none) ∨
        ∃ left middle, Evaluates first bindings input (some (left, middle)) ∧
          ((Evaluates second bindings middle none ∧ outcome = none) ∨
            ∃ right rest, Evaluates second bindings middle (some (right, rest)) ∧
              outcome = some ((left, right), rest))
  | _, _, .many grammar, bindings, input, outcome =>
      (Evaluates grammar bindings input none ∧ outcome = some ([], input)) ∨
        ∃ value middle, Evaluates grammar bindings input (some (value, middle)) ∧
          ((middle.byteLength = input.byteLength ∧ outcome = some ([], input)) ∨
            middle.byteLength ≠ input.byteLength ∧
              ∃ values rest, Evaluates (.many grammar) bindings middle (some (values, rest)) ∧
                outcome = some (value :: values, rest))
  | _, _, .sepBy item separator, bindings, input, outcome =>
      (Evaluates item bindings input none ∧ outcome = some ([], input)) ∨
        ∃ value middle values rest, Evaluates item bindings input (some (value, middle)) ∧
          Evaluates (.many (.seqRight separator item)) bindings middle (some (values, rest)) ∧
          outcome = some (value :: values, rest)
  | _, _, _, _, _, _ => True

private theorem parts {grammar : Grammar scope α} {bindings : Bindings scope} {input : Input}
    {outcome : Option (α × Input)} (evaluated : Evaluates grammar bindings input outcome) :
    Parts grammar bindings input outcome := by
  cases evaluated with
  | optionalNone refused => exact .inl ⟨refused, rfl⟩
  | optionalSome matched => exact .inr ⟨_, _, matched, rfl⟩
  | pairFirst refused => exact .inl ⟨refused, rfl⟩
  | pairSecond matched refused => exact .inr ⟨_, _, matched, .inl ⟨refused, rfl⟩⟩
  | pairBoth matched followed => exact .inr ⟨_, _, matched, .inr ⟨_, _, followed, rfl⟩⟩
  | manyEnd refused => exact .inl ⟨refused, rfl⟩
  | manyEmpty matched still => exact .inr ⟨_, _, matched, .inl ⟨still, rfl⟩⟩
  | manyStep matched moved others =>
      exact .inr ⟨_, _, matched, .inr ⟨moved, _, _, others, rfl⟩⟩
  | sepByNone refused => exact .inl ⟨refused, rfl⟩
  | sepBySome matched others => exact .inr ⟨_, _, _, _, matched, others, rfl⟩
  | _ => exact True.intro

/-- A grammar has at most one outcome on a text. -/
theorem unique {grammar : Grammar scope α} {bindings : Bindings scope} {input : Input}
    {left right : Option (α × Input)} (evaluated : Evaluates grammar bindings input left)
    (again : Evaluates grammar bindings input right) : left = right := by
  induction evaluated with
  | primitive ran =>
      cases again with
      | primitive other => exact ran.symm.trans other
  | innermost _ ih =>
      cases again with
      | innermost other => exact ih other
  | outer _ ih =>
      cases again with
      | outer other => exact ih other
  | lazy _ ih =>
      cases again with
      | lazy other => exact ih other
  | mapNone _ ih =>
      cases again with
      | mapNone _ => rfl
      | mapSome other => cases ih other
  | mapSome _ ih =>
      cases again with
      | mapNone other => cases ih other
      | mapSome other => cases ih other; rfl
  | filterMapNone _ ih =>
      cases again with
      | filterMapNone _ => rfl
      | filterMapReject _ _ => rfl
      | filterMapSome other _ => cases ih other
  | filterMapReject _ refused ih =>
      cases again with
      | filterMapNone _ => rfl
      | filterMapReject _ _ => rfl
      | filterMapSome other accepted =>
          cases ih other
          cases refused.symm.trans accepted
  | filterMapSome _ accepted ih =>
      cases again with
      | filterMapNone other => cases ih other
      | filterMapReject other refused =>
          cases ih other
          cases refused.symm.trans accepted
      | filterMapSome other otherAccepted =>
          cases ih other
          cases accepted.symm.trans otherAccepted
          rfl
  | bindNone _ ih =>
      cases again with
      | bindNone _ => rfl
      | bindSome other _ => cases ih other
  | bindSome _ _ firstIH nextIH =>
      cases again with
      | bindNone other => cases firstIH other
      | bindSome other otherNext =>
          cases firstIH other
          exact nextIH otherNext
  | orElseFirst _ ih =>
      cases again with
      | orElseFirst other => exact ih other
      | orElseSecond other _ => cases ih other
  | orElseSecond _ _ firstIH secondIH =>
      cases again with
      | orElseFirst other => cases firstIH other
      | orElseSecond _ other => exact secondIH other
  | firstOfNone _ ih =>
      cases again with
      | firstOfNone _ => rfl
      | firstOfSome _ other => cases ih _ other
  | @firstOfSome _ _ _ _ _ _ index _ _ _ earlierIH ih =>
      cases again with
      | firstOfNone others => cases ih (others index)
      | @firstOfSome _ _ _ _ _ _ otherIndex _ otherEarlier other =>
          rcases Nat.lt_trichotomy index otherIndex with before | same | after
          · cases ih (otherEarlier index before)
          · cases Fin.ext same
            exact ih other
          · cases earlierIH otherIndex after other
  | optionalNone _ ih =>
      rcases again.parts with ⟨_, rfl⟩ | ⟨_, _, other, _⟩
      · rfl
      · cases ih other
  | optionalSome _ ih =>
      rcases again.parts with ⟨other, _⟩ | ⟨_, _, other, rfl⟩
      · cases ih other
      · cases ih other; rfl
  | pairFirst _ ih =>
      rcases again.parts with ⟨_, rfl⟩ | ⟨_, _, other, _⟩
      · rfl
      · cases ih other
  | pairSecond _ _ firstIH secondIH =>
      rcases again.parts with ⟨_, rfl⟩ | ⟨_, _, other, ⟨_, rfl⟩ | ⟨_, _, otherSecond, _⟩⟩
      · rfl
      · rfl
      · cases firstIH other
        cases secondIH otherSecond
  | pairBoth _ _ firstIH secondIH =>
      rcases again.parts with
        ⟨other, _⟩ | ⟨_, _, other, ⟨otherSecond, _⟩ | ⟨_, _, otherSecond, rfl⟩⟩
      · cases firstIH other
      · cases firstIH other
        cases secondIH otherSecond
      · cases firstIH other
        cases secondIH otherSecond
        rfl
  | seqLeftFirst _ ih =>
      cases again with
      | seqLeftFirst _ => rfl
      | seqLeftSecond _ _ => rfl
      | seqLeftBoth other _ => cases ih other
  | seqLeftSecond _ _ firstIH secondIH =>
      cases again with
      | seqLeftFirst _ => rfl
      | seqLeftSecond _ _ => rfl
      | seqLeftBoth other otherSecond =>
          cases firstIH other
          cases secondIH otherSecond
  | seqLeftBoth _ _ firstIH secondIH =>
      cases again with
      | seqLeftFirst other => cases firstIH other
      | seqLeftSecond other otherSecond =>
          cases firstIH other
          cases secondIH otherSecond
      | seqLeftBoth other otherSecond =>
          cases firstIH other
          cases secondIH otherSecond
          rfl
  | seqRightFirst _ ih =>
      cases again with
      | seqRightFirst _ => rfl
      | seqRightSecond other _ => cases ih other
  | seqRightSecond _ _ firstIH secondIH =>
      cases again with
      | seqRightFirst other => cases firstIH other
      | seqRightSecond other otherSecond =>
          cases firstIH other
          exact secondIH otherSecond
  | manyEnd _ ih =>
      rcases again.parts with ⟨_, rfl⟩ | ⟨_, _, other, _⟩
      · rfl
      · cases ih other
  | manyEmpty _ still ih =>
      rcases again.parts with ⟨_, rfl⟩ | ⟨_, _, other, ⟨_, rfl⟩ | ⟨moved, _⟩⟩
      · rfl
      · rfl
      · cases ih other
        exact absurd still moved
  | manyStep _ moved _ firstIH othersIH =>
      rcases again.parts with ⟨other, _⟩ | ⟨_, _, other, ⟨still, _⟩ | ⟨_, _, _, others, rfl⟩⟩
      · cases firstIH other
      · cases firstIH other
        exact absurd still moved
      · cases firstIH other
        cases othersIH others
        rfl
  | sepByNone _ ih =>
      rcases again.parts with ⟨_, rfl⟩ | ⟨_, _, _, _, other, _⟩
      · rfl
      · cases ih other
  | sepBySome _ _ firstIH othersIH =>
      rcases again.parts with ⟨other, _⟩ | ⟨_, _, _, _, other, others, rfl⟩
      · cases firstIH other
      · cases firstIH other
        cases othersIH others
        rfl

end Evaluates

end Grammar

end PuzzleKit
