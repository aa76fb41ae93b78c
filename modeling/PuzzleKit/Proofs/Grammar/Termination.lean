import PuzzleKit.Proofs.Grammar.Evaluation
import PuzzleKit.Proofs.Grammar.Guarded

/-!
# Guarded grammars terminate

A guarded grammar has an evaluation on every text, and its outcome is that of the parser of the
grammar. The induction is on the grammar. What it needs of the names in scope is that each of them
ends on the texts on which the grammar may come to it: a pending name only on shorter ones.
-/

set_option autoImplicit false

namespace PuzzleKit.Grammar

variable {scope : List Type} {α β : Type} {bindings : Bindings scope} {input : Input}

namespace Evaluates

/-! ## Composed evaluations

If the parts of a grammar evaluate to what their parsers yield, so does the grammar. The second part
of a sequence is only asked for where the first one ended. -/

theorem of_map {grammar : Grammar scope α} {parser : Parser α} {transform : α → β}
    (evaluated : Evaluates grammar bindings input (parser.run input)) :
    Evaluates (.map grammar transform) bindings input ((parser.map transform).run input) := by
  simp only [Parser.map]
  split
  · next ran => exact .mapNone (ran ▸ evaluated)
  · next ran => exact .mapSome (ran ▸ evaluated)

theorem of_filterMap {grammar : Grammar scope α} {parser : Parser α} {transform : α → Option β}
    (evaluated : Evaluates grammar bindings input (parser.run input)) :
    Evaluates (.filterMap grammar transform) bindings input
      ((parser.filterMap transform).run input) := by
  simp only [Parser.filterMap]
  split
  · next ran => exact .filterMapNone (ran ▸ evaluated)
  · next ran =>
      split
      · next refused => exact .filterMapReject (ran ▸ evaluated) refused
      · next accepted => exact .filterMapSome (ran ▸ evaluated) accepted

theorem of_bind {grammar : Grammar scope α} {next : α → Grammar scope β} {parser : Parser α}
    {nextParser : α → Parser β} (evaluated : Evaluates grammar bindings input (parser.run input))
    (followed : ∀ value rest, parser.run input = some (value, rest) →
      Evaluates (next value) bindings rest ((nextParser value).run rest)) :
    Evaluates (.bind grammar next) bindings input ((parser.bind nextParser).run input) := by
  simp only [Parser.bind]
  split
  · next ran => exact .bindNone (ran ▸ evaluated)
  · next value rest ran => exact .bindSome (ran ▸ evaluated) (followed value rest ran)

theorem of_orElse {first second : Grammar scope α} {left right : Parser α}
    (evaluated : Evaluates first bindings input (left.run input))
    (otherwise : Evaluates second bindings input (right.run input)) :
    Evaluates (.orElse first second) bindings input ((left.orElse right).run input) := by
  simp only [Parser.orElse]
  split
  · next ran => exact .orElseFirst (ran ▸ evaluated)
  · next ran => exact .orElseSecond (ran ▸ evaluated) otherwise

theorem of_firstOf {count : Nat} {choice : Fin count → Grammar scope α}
    {parsers : Fin count → Parser α}
    (evaluated : ∀ index, Evaluates (choice index) bindings input ((parsers index).run input)) :
    Evaluates (.firstOf count choice) bindings input
      ((Parser.firstOf (List.ofFn parsers)).run input) := by
  cases ran : (Parser.firstOf (List.ofFn parsers)).run input with
  | none =>
      have refused := List.findSome?_eq_none_iff.mp ran
      exact .firstOfNone fun index =>
        refused _ (List.mem_ofFn.mpr ⟨index, rfl⟩) ▸ evaluated index
  | some found =>
      obtain ⟨index, refused, matched⟩ := Parser.run_firstOf_eq_some_iff.mp ran
      exact .firstOfSome (fun earlier before => refused earlier before ▸ evaluated earlier)
        (matched ▸ evaluated index)

theorem of_optional {grammar : Grammar scope α} {parser : Parser α}
    (evaluated : Evaluates grammar bindings input (parser.run input)) :
    Evaluates (.optional grammar) bindings input (parser.optional.run input) := by
  simp only [Parser.optional]
  split
  · next ran => exact .optionalSome (ran ▸ evaluated)
  · next ran => exact .optionalNone (ran ▸ evaluated)

section Sequences

variable {first : Grammar scope α} {second : Grammar scope β} {left : Parser α} {right : Parser β}

theorem of_pair (evaluated : Evaluates first bindings input (left.run input))
    (followed : ∀ value rest, left.run input = some (value, rest) →
      Evaluates second bindings rest (right.run rest)) :
    Evaluates (.pair first second) bindings input ((left.pair right).run input) := by
  simp only [Parser.pair]
  split
  · next ran => exact .pairFirst (ran ▸ evaluated)
  · next value middle ran =>
      have after := followed value middle ran
      split
      · next refused => exact .pairSecond (ran ▸ evaluated) (refused ▸ after)
      · next matched => exact .pairBoth (ran ▸ evaluated) (matched ▸ after)

theorem of_seqLeft (evaluated : Evaluates first bindings input (left.run input))
    (followed : ∀ value rest, left.run input = some (value, rest) →
      Evaluates second bindings rest (right.run rest)) :
    Evaluates (.seqLeft first second) bindings input ((left.seqLeft right).run input) := by
  simp only [Parser.seqLeft]
  split
  · next ran => exact .seqLeftFirst (ran ▸ evaluated)
  · next value middle ran =>
      have after := followed value middle ran
      split
      · next refused => exact .seqLeftSecond (ran ▸ evaluated) (refused ▸ after)
      · next matched => exact .seqLeftBoth (ran ▸ evaluated) (matched ▸ after)

theorem of_seqRight (evaluated : Evaluates first bindings input (left.run input))
    (followed : ∀ value rest, left.run input = some (value, rest) →
      Evaluates second bindings rest (right.run rest)) :
    Evaluates (.seqRight first second) bindings input ((left.seqRight right).run input) := by
  simp only [Parser.seqRight]
  split
  · next ran => exact .seqRightFirst (ran ▸ evaluated)
  · next value middle ran => exact .seqRightSecond (ran ▸ evaluated) (followed value middle ran)

end Sequences

theorem of_many {grammar : Grammar scope α} {parser : Parser α}
    (evaluated : ∀ shorter : Input, shorter.length ≤ input.length →
      Evaluates grammar bindings shorter (parser.run shorter)) :
    Evaluates (.many grammar) bindings input (parser.many.run input) := by
  obtain ⟨values, rest, repeated⟩ := Parser.exists_repeats parser input
  rw [Parser.run_many_eq_some_iff.mpr repeated]
  induction repeated with
  | @stop input ended =>
      have last := evaluated input (Nat.le_refl _)
      cases ran : parser.run input with
      | none => exact .manyEnd (ran ▸ last)
      | some found =>
          obtain ⟨value, rest⟩ := found
          have unread := congrArg Input.byteLength (ended value rest ran)
          exact .manyEmpty (ran ▸ last) unread
  | @step input middle rest value values ran shorter _ ih =>
      have moved : middle.byteLength ≠ input.byteLength := fun same =>
        Nat.ne_of_lt shorter ((Input.byteLength_eq_iff_of_suffix (parser.run_suffix ran)).mp same)
      refine .manyStep (ran ▸ evaluated input (Nat.le_refl _)) moved (ih fun text short => ?_)
      exact evaluated text (Nat.le_trans short (Nat.le_of_lt shorter))

theorem of_sepBy {item : Grammar scope α} {separator : Grammar scope β} {itemParser : Parser α}
    {separatorParser : Parser β}
    (evaluated : Evaluates item bindings input (itemParser.run input))
    (followed : ∀ value rest, itemParser.run input = some (value, rest) →
      Evaluates (.many (.seqRight separator item)) bindings rest
        ((separatorParser.seqRight itemParser).many.run rest)) :
    Evaluates (.sepBy item separator) bindings input
      ((itemParser.sepBy separatorParser).run input) := by
  cases ran : itemParser.run input with
  | none =>
      rw [Parser.run_sepBy_eq_some_iff.mpr (.inl ⟨ran, rfl, rfl⟩)]
      exact .sepByNone (ran ▸ evaluated)
  | some found =>
      obtain ⟨value, middle⟩ := found
      obtain ⟨values, rest, repeated⟩ :=
        Parser.exists_repeats (separatorParser.seqRight itemParser) middle
      have others := followed value middle ran
      rw [Parser.run_many_eq_some_iff.mpr repeated] at others
      rw [Parser.run_sepBy_eq_some_iff.mpr (.inr ⟨value, middle, values, ran, repeated, rfl⟩)]
      exact .sepBySome (ran ▸ evaluated) others

end Evaluates

/-! ## Termination -/

/-- Every name in scope ends, with the outcome of the parser that it stands for, on texts up to the
given length. A pending name does so on shorter texts only. -/
def Settled (bindings : Bindings scope) (environment : Environment scope) (pending length : Nat) :
    Prop :=
  ∀ ⦃α : Type⦄ (name : Name scope α) (input : Input),
    input.length ≤ length → (name.index < pending → input.length < length) →
      Evaluates (.reference name) bindings input ((environment α name).run input)

variable {environment : Environment scope} {pending length : Nat}

theorem Settled.mono (settled : Settled bindings environment pending length) {shorter : Nat}
    (le : shorter ≤ length) : Settled bindings environment pending shorter := by
  intro α name input short behind
  refine settled name input (Nat.le_trans short le) fun waiting => ?_
  exact Nat.lt_of_lt_of_le (behind waiting) le

/-- Once something was read, no name is pending any more. -/
theorem Settled.behind (settled : Settled bindings environment pending length) {shorter : Nat}
    (lt : shorter < length) : Settled bindings environment 0 shorter := by
  intro α name input short _
  exact settled name input (by omega) fun _ => by omega

/-- What follows a part is settled where that part ended: either something was read, and nothing is
pending, or the part is known to yield its value without reading. -/
theorem Settled.after {first : Grammar scope α} {second : Grammar scope β} {rest : Input}
    {value : α} (settled : Settled bindings environment pending input.length)
    (ran : (first.parser environment).run input = some (value, rest))
    (behind : second.Guarded 0) (still : first.Nullable value → second.Guarded pending) :
    ∃ waiting, second.Guarded waiting ∧ Settled bindings environment waiting rest.length := by
  by_cases read : rest.length < input.length
  · exact ⟨0, behind, settled.behind read⟩
  · have unread := Nat.le_of_not_lt read
    exact ⟨pending, still (nullable_of_run ran unread), settled.mono (Parser.length_le_of_run ran)⟩

/-- A name that was just bound is pending. -/
theorem Settled.bind {body : Grammar (α :: scope) α} {parser : Parser α}
    (settled : Settled bindings environment pending length)
    (ends : ∀ input : Input, input.length < length →
      Evaluates body (.bind body bindings) input (parser.run input)) :
    Settled (.bind body bindings) (environment.bind parser) (pending + 1) length := by
  intro β name input short behind
  cases name with
  | innermost => exact .innermost (ends input (behind (Nat.succ_pos pending)))
  | outer name =>
      exact .outer (settled name input short fun waiting => behind (Nat.succ_lt_succ waiting))

/-- Every unfolding that is deeper than the text is long yields the outcome of the evaluation. The
uses of the name in the body are uses on shorter texts, and there one unfolding less is enough. -/
theorem evaluates_unfold {body : Grammar (α :: scope) α} {depth : Nat} {input : Input}
    (settled : Settled bindings environment pending input.length)
    (ends : ∀ (parser : Parser α) (input : Input),
      Settled (.bind body bindings) (environment.bind parser) (pending + 1) input.length →
        Evaluates body (.bind body bindings) input
          ((body.parser (environment.bind parser)).run input))
    (deep : input.length < depth) :
    Evaluates body (.bind body bindings) input
      ((Parser.unfold (fun itself => body.parser (environment.bind itself)) depth).run input) := by
  induction depth generalizing input with
  | zero => exact absurd deep (Nat.not_lt_zero _)
  | succ depth ih =>
      refine ends _ input (settled.bind fun shorter short => ?_)
      exact ih (settled.mono (Nat.le_of_lt short)) (by omega)

/-- A guarded grammar ends on every text on which the names in scope are settled. The loop of a list
of items is no part of the grammar; it is guarded where the first item ended. -/
theorem Guarded.evaluates {grammar : Grammar scope α} {input : Input}
    (guarded : grammar.Guarded pending)
    (settled : Settled bindings environment pending input.length) :
    Evaluates grammar bindings input ((grammar.parser environment).run input) := by
  induction grammar generalizing pending input with
  | primitive leaf => exact .primitive rfl
  | reference name =>
      refine settled name input (Nat.le_refl _) fun waiting => ?_
      exact absurd guarded (Nat.not_le_of_lt waiting)
  | lazy body ih =>
      refine .lazy (evaluates_unfold settled (fun parser text known => ?_) (Nat.lt_succ_self _))
      exact ih guarded known
  | map grammar transform ih => exact .of_map (ih guarded settled)
  | filterMap grammar transform ih => exact .of_filterMap (ih guarded settled)
  | bind grammar next ih nextIH =>
      refine .of_bind (ih guarded.1 settled) fun value rest ran => ?_
      obtain ⟨behind, still⟩ := guarded.2 value
      obtain ⟨_, nextGuarded, nextSettled⟩ := settled.after ran behind still
      exact nextIH value nextGuarded nextSettled
  | orElse first second firstIH secondIH =>
      exact .of_orElse (firstIH guarded.1 settled) (secondIH guarded.2 settled)
  | firstOf count choice ih => exact .of_firstOf fun index => ih index (guarded index) settled
  | optional grammar ih => exact .of_optional (ih guarded settled)
  | pair first second firstIH secondIH =>
      refine .of_pair (firstIH guarded.1 settled) fun value rest ran => ?_
      obtain ⟨_, secondGuarded, secondSettled⟩ :=
        settled.after ran guarded.2.1 (guarded.2.2 value)
      exact secondIH secondGuarded secondSettled
  | seqLeft first second firstIH secondIH =>
      refine .of_seqLeft (firstIH guarded.1 settled) fun value rest ran => ?_
      obtain ⟨_, secondGuarded, secondSettled⟩ :=
        settled.after ran guarded.2.1 (guarded.2.2 value)
      exact secondIH secondGuarded secondSettled
  | seqRight first second firstIH secondIH =>
      refine .of_seqRight (firstIH guarded.1 settled) fun value rest ran => ?_
      obtain ⟨_, secondGuarded, secondSettled⟩ :=
        settled.after ran guarded.2.1 (guarded.2.2 value)
      exact secondIH secondGuarded secondSettled
  | many grammar ih =>
      exact .of_many fun shorter short => ih guarded (settled.mono short)
  | sepBy item separator itemIH separatorIH =>
      obtain ⟨itemGuarded, separatorGuarded, still⟩ := guarded
      refine .of_sepBy (itemIH itemGuarded settled) fun value rest ran => ?_
      have itemBehind := itemGuarded.mono (Nat.zero_le pending)
      have loopBehind : (Grammar.many (.seqRight separator item)).Guarded 0 :=
        ⟨separatorGuarded, itemBehind, fun _ _ => itemBehind⟩
      have loopStill (nullable : item.Nullable value) :
          (Grammar.many (.seqRight separator item)).Guarded pending :=
        ⟨still value nullable, itemBehind, fun _ _ => itemGuarded⟩
      obtain ⟨_, ⟨firstGuarded, behind, next⟩, loopSettled⟩ :=
        settled.after ran loopBehind loopStill
      refine .of_many fun shorter short => ?_
      have here := loopSettled.mono short
      refine .of_seqRight (separatorIH firstGuarded here) fun skipped middle skip => ?_
      obtain ⟨_, guarded, settled⟩ := here.after skip behind (next skipped)
      exact itemIH guarded settled

theorem settled_empty {length : Nat} :
    Settled Bindings.empty Environment.empty pending length :=
  fun _ name => nomatch name

/-- A guarded grammar ends on every text, after finitely many calls and with the outcome of its
parser. Nothing is asked of what a repetition repeats. Grammars without recursion are guarded, and
so is the grammar of nested parentheses. -/
theorem guarded_terminates :
    (∀ {α : Type} (grammar : Grammar [] α), grammar.Guarded 0 → ∀ input : Input,
      Evaluates grammar .empty input (grammar.toParser.run input) ∧
        ∀ outcome, Evaluates grammar .empty input outcome →
          outcome = grammar.toParser.run input) ∧
      (∀ {α : Type} (grammar : Grammar [] α), grammar.ReferenceFree → grammar.Guarded 0) ∧
      nesting.Guarded 0 := by
  refine ⟨fun grammar guarded input => ?_, fun grammar free => free.guarded 0, nesting_guarded⟩
  have ended : Evaluates grammar .empty input (grammar.toParser.run input) :=
    guarded.evaluates settled_empty
  exact ⟨ended, fun outcome other => other.unique ended⟩

/-- Two parentheses nest in each other, and a repetition of nothing finds nothing. -/
theorem guarded_terminates_nesting :
    Evaluates nesting .empty (Input.ofString "(())x") (some (2, Input.ofString "x")) ∧
      Evaluates (.many (.primitive (.succeed 1))) .empty (Input.ofString "abc")
        (some ([], Input.ofString "abc")) := by
  have nested : nesting.toParser.run (Input.ofString "(())x") = some (2, Input.ofString "x") := by
    decide +kernel
  have repeated : (Grammar.many (.primitive (.succeed 1))).toParser.run (Input.ofString "abc") =
      some ([], Input.ofString "abc") := by
    decide +kernel
  have free : (Grammar.many (.primitive (.succeed 1)) : Grammar [] (List Nat)).ReferenceFree :=
    True.intro
  rw [← nested, ← repeated]
  exact ⟨(guarded_terminates.1 nesting guarded_terminates.2.2 _).1,
    (guarded_terminates.1 _ (guarded_terminates.2.1 _ free) _).1⟩

end PuzzleKit.Grammar
