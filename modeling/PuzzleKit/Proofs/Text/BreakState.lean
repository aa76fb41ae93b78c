import PuzzleKit.Proofs.Text.Boundary

/-!
# What a break state knows

The reader of graphemes goes over a text once and keeps a `BreakState`. After any text the state
knows of every rule whether the text before has the form that the rule asks for, so it joins exactly
the characters that belong together. And where it does not join two characters, it knows no more of
the text before them than if there were none.
-/

set_option autoImplicit false

namespace PuzzleKit.Text

open Computability

/-! ## Languages and their last character -/

section Languages

variable {language : Language Char} {holds : Char → Prop} {before : List Char} {char : Char}

@[simp]
theorem concat_mem_mul_one :
    before ++ [char] ∈ language * one holds ↔ before ∈ language ∧ holds char := by
  rw [Language.mem_mul]
  constructor
  · intro parts
    obtain ⟨front, member, _, ⟨last, accepted, rfl⟩, same⟩ := parts
    obtain ⟨rfl, rfl⟩ := List.append_inj' same rfl |>.imp_right List.singleton_inj.mp
    exact ⟨member, accepted⟩
  · intro parts
    exact ⟨before, parts.1, [char], ⟨char, parts.2, rfl⟩, rfl⟩

@[simp]
theorem nil_notMem_mul_one : [] ∉ language * one holds := by
  rw [Language.mem_mul]
  rintro ⟨front, _, _, ⟨last, _, rfl⟩, same⟩
  exact List.append_ne_nil_of_right_ne_nil front (List.cons_ne_nil last []) same

theorem mul_kstar_eq (language repeated : Language Char) :
    language * repeated∗ = language + language * repeated∗ * repeated := by
  calc language * repeated∗ = language * (1 + repeated∗ * repeated) := by
        rw [Language.one_add_kstar_mul_self_eq_kstar]
    _ = language + language * repeated∗ * repeated := by rw [mul_add, mul_one, mul_assoc]

@[simp]
theorem concat_mem_mul_kstar_one :
    before ++ [char] ∈ language * (one holds)∗ ↔
      before ++ [char] ∈ language ∨ before ∈ language * (one holds)∗ ∧ holds char := by
  rw [mul_kstar_eq, Language.mem_add, concat_mem_mul_one, ← mul_kstar_eq]

@[simp]
theorem nil_mem_mul_kstar {repeated : Language Char} :
    [] ∈ language * repeated∗ ↔ [] ∈ language := by
  constructor
  · intro member
    obtain ⟨front, first, others, _, same⟩ := Language.mem_mul.mp member
    rwa [(List.append_eq_nil_iff.mp same).1] at first
  · exact fun member => Language.append_mem_mul member (Language.nil_mem_kstar repeated)

@[simp]
theorem mem_top (text : List Char) : text ∈ (⊤ : Language Char) :=
  Set.mem_univ text

end Languages

@[simp]
theorem concat_mem_endsWith {before : List Char} {char : Char} {classes : List BreakClass} :
    before ++ [char] ∈ endsWith classes ↔ breakClass char ∈ classes := by
  simp [endsWith, ofClass]

theorem nil_mem_afterNoFlag : [] ∈ afterNoFlag :=
  (Language.mem_add _ _ _).mpr (.inl Language.nil_mem_one)

theorem concat_mem_afterNoFlag {before : List Char} {char : Char} :
    before ++ [char] ∈ afterNoFlag ↔ breakClass char ≠ .flag := by
  rw [afterNoFlag, Language.mem_add, Language.mem_one, concat_mem_mul_one]
  simp

theorem concat_mem_afterOddFlag {before : List Char} {char : Char} :
    before ++ [char] ∈ afterOddFlag ↔ before ∈ afterFlagPairs ∧ breakClass char = .flag := by
  simp [afterOddFlag, ofClass]

theorem concat_mem_afterFlagPairs {before : List Char} {char : Char} :
    before ++ [char] ∈ afterFlagPairs ↔
      breakClass char ≠ .flag ∨ before ∈ afterOddFlag ∧ breakClass char = .flag := by
  rw [afterFlagPairs, mul_kstar_eq, ← mul_assoc, Language.mem_add, ← afterFlagPairs,
    ← afterOddFlag, concat_mem_afterNoFlag]
  simp [ofClass]

/-! ## Classes and roles -/

/-- A linker is a mark, and extends the consonant before it. -/
theorem breakClass_of_linker {char : Char} (linker : conjunctRole char = .linker) :
    breakClass char = .extend := by
  have table : ∀ range ∈ conjunctLinkerRanges,
      range.1 = range.2 ∧ breakClass (Char.ofNat range.1) = .extend := by
    decide +kernel
  have found : inRanges char.toNat conjunctLinkerRanges = true := by
    unfold conjunctRole at linker
    split_ifs at linker
    assumption
  have sorted : ascending 0 conjunctLinkerRanges = true := by decide
  obtain ⟨range, member, low, high⟩ := (inRanges_iff sorted).mp found
  obtain ⟨single, extendsIt⟩ := table range member
  have code : char.toNat = range.1 := Nat.le_antisymm (single ▸ high) low
  rwa [← code, Char.ofNat_toNat] at extendsIt

/-- The ranges of all controls, the two line ends included. -/
def allControlRanges : List (Nat × Nat) :=
  (0x0A, 0x0A) :: (0x0D, 0x0D) :: controlRanges

theorem exists_range_of_isControl {char : Char}
    (control : BreakState.isControl (breakClass char) = true) :
    ∃ range ∈ allControlRanges, range.1 ≤ char.toNat ∧ char.toNat ≤ range.2 := by
  simp only [breakClass, apply_ite BreakState.isControl] at control
  simp only [BreakState.isControl, ite_self] at control
  split at control
  · next returned =>
      have code := eq_of_beq returned
      exact ⟨_, List.mem_cons_of_mem _ List.mem_cons_self, code.ge, code.le⟩
  · split at control
    · next fed =>
        have code := eq_of_beq fed
        exact ⟨_, List.mem_cons_self, code.ge, code.le⟩
    · split at control
      · cases control
      · have inside : inRanges char.toNat controlRanges = true := by simpa using control
        have sorted : ascending 0 controlRanges = true := by decide
        obtain ⟨range, member, bounds⟩ := (inRanges_iff sorted).mp inside
        exact ⟨range, List.mem_cons_of_mem _ (List.mem_cons_of_mem _ member), bounds⟩

theorem not_isControl_of_consonant {char : Char} (consonant : conjunctRole char = .consonant) :
    BreakState.isControl (breakClass char) = false := by
  have apart : ∀ range ∈ conjunctConsonantRanges, ∀ other ∈ allControlRanges,
      range.2 < other.1 ∨ other.2 < range.1 := by
    decide +kernel
  have found : inRanges char.toNat conjunctConsonantRanges = true := by
    unfold conjunctRole at consonant
    split_ifs at consonant
    assumption
  have sorted : ascending 0 conjunctConsonantRanges = true := by decide
  obtain ⟨range, member, low, high⟩ := (inRanges_iff sorted).mp found
  rw [Bool.eq_false_iff]
  intro control
  obtain ⟨other, otherMember, otherLow, otherHigh⟩ := exists_range_of_isControl control
  have := apart range member other otherMember
  omega

/-- What may stand between two consonants extends the grapheme before it. -/
theorem breakClass_of_mark {char : Char} (mark : conjunctRole char ∈ [.between, .linker]) :
    breakClass char ∈ [.extend, .joiner] := by
  rcases List.mem_cons.mp mark with between | linker
  · unfold conjunctRole at between
    split_ifs at between with _ _ _ extending
    simpa using extending
  · rw [breakClass_of_linker (List.mem_singleton.mp linker)]
    exact List.mem_cons_self

theorem conjunctRole_of_isControl {char : Char}
    (control : BreakState.isControl (breakClass char) = true) : conjunctRole char = .none := by
  cases role : conjunctRole char with
  | none => rfl
  | consonant =>
      rw [not_isControl_of_consonant role] at control
      cases control
  | linker =>
      rw [breakClass_of_linker role] at control
      cases control
  | between =>
      have mark : conjunctRole char ∈ [.between, .linker] := by simp [role]
      rcases List.mem_cons.mp (breakClass_of_mark mark) with extend | joiner
      · rw [extend] at control
        cases control
      · rw [List.mem_singleton.mp joiner] at control
        cases control

namespace BreakState

/-! ## The state after a text -/

def after (before : List Char) : BreakState :=
  before.foldl advance initial

@[simp]
theorem after_nil : after [] = initial := rfl

theorem after_append (before middle : List Char) :
    after (before ++ middle) = middle.foldl advance (after before) :=
  List.foldl_append

@[simp]
theorem after_concat (before : List Char) (char : Char) :
    after (before ++ [char]) = (after before).advance char :=
  after_append before [char]

theorem advancePictograph_eq_present_iff {state : PictographState} {charClass : BreakClass} :
    advancePictograph state charClass = .present ↔
      charClass = .pictograph ∨ state = .present ∧ charClass = .extend := by
  cases charClass <;> cases state <;> simp [advancePictograph]

theorem advancePictograph_eq_joined_iff {state : PictographState} {charClass : BreakClass} :
    advancePictograph state charClass = .joined ↔ state = .present ∧ charClass = .joiner := by
  cases charClass <;> cases state <;> simp [advancePictograph]

theorem advanceConjunct_ne_absent_iff {state : ConjunctState} {role : ConjunctRole} :
    advanceConjunct state role ≠ .absent ↔
      role = .consonant ∨ state ≠ .absent ∧ role ∈ [.between, .linker] := by
  cases role <;> simp [advanceConjunct]

theorem advanceConjunct_eq_linked_iff {state : ConjunctState} {role : ConjunctRole} :
    advanceConjunct state role = .linked ↔
      state ≠ .absent ∧ role = .linker ∨ state = .linked ∧ role ∈ [.between, .linker] := by
  cases role <;> cases state <;> simp [advanceConjunct]

theorem after_pictograph_eq_present_iff (before : List Char) :
    (after before).pictograph = .present ↔ before ∈ afterPictograph := by
  induction before using List.reverseRecOn with
  | nil => simp [afterPictograph, ofClass, initial]
  | append_singleton before char ih =>
      simp only [afterPictograph, ofClass] at ih ⊢
      simp [advance, advancePictograph_eq_present_iff, ih]

theorem after_pictograph_eq_joined_iff (before : List Char) :
    (after before).pictograph = .joined ↔ before ∈ afterJoinedPictograph := by
  induction before using List.reverseRecOn with
  | nil => simp [afterJoinedPictograph, ofClass, initial]
  | append_singleton before char ih =>
      simp [advance, advancePictograph_eq_joined_iff, after_pictograph_eq_present_iff,
        afterJoinedPictograph, ofClass]

theorem after_conjunct_ne_absent_iff (before : List Char) :
    (after before).conjunct ≠ .absent ↔ before ∈ afterConsonant := by
  induction before using List.reverseRecOn with
  | nil => simp [afterConsonant, ofRole, initial]
  | append_singleton before char ih =>
      simp only [after_concat, advance, advanceConjunct_ne_absent_iff, ih]
      simp [afterConsonant, ofRole]

theorem after_conjunct_eq_linked_iff (before : List Char) :
    (after before).conjunct = .linked ↔ before ∈ afterLinkedConsonant := by
  induction before using List.reverseRecOn with
  | nil => simp [afterLinkedConsonant, ofRole, initial]
  | append_singleton before char ih =>
      simp only [after_concat, advance, advanceConjunct_eq_linked_iff, ih,
        after_conjunct_ne_absent_iff]
      simp [afterLinkedConsonant, ofRole]

/-- The state counts flag letters by pairs: either half a pair is open, or none. -/
theorem after_oddFlags_iff (before : List Char) :
    ((after before).oddFlags = true ↔ before ∈ afterOddFlag) ∧
      ((after before).oddFlags = false ↔ before ∈ afterFlagPairs) := by
  induction before using List.reverseRecOn with
  | nil =>
      have pairs : [] ∈ afterFlagPairs := nil_mem_mul_kstar.mpr nil_mem_afterNoFlag
      simp [afterOddFlag, ofClass, initial, pairs]
  | append_singleton before char ih =>
      obtain ⟨odd, even⟩ := ih
      rw [concat_mem_afterOddFlag, concat_mem_afterFlagPairs, ← odd, ← even]
      by_cases flag : breakClass char = .flag <;> simp [advance, flag]

/-! ## What the state joins -/

theorem continuesSyllable_iff {last next : BreakClass} :
    continuesSyllable last next = true ↔
      last ∈ [.hangulLead] ∧ next ∈ [.hangulLead, .hangulVowel, .hangulOpen, .hangulClosed] ∨
      last ∈ [.hangulOpen, .hangulVowel] ∧ next ∈ [.hangulVowel, .hangulTail] ∨
      last ∈ [.hangulClosed, .hangulTail] ∧ next = .hangulTail := by
  cases last <;> cases next <;> simp [continuesSyllable]

theorem isControl_iff {charClass : BreakClass} :
    isControl charClass = true ↔ charClass ∈ controls := by
  cases charClass <;> simp [isControl, controls]

/-- No rule but those about controls takes precedence over another one. -/
theorem joins_iff {state : BreakState} {next : Char} :
    state.joins next = true ↔
      state.last = .carriageReturn ∧ breakClass next = .lineFeed ∨
        state.last ∉ controls ∧ breakClass next ∉ controls ∧
          (continuesSyllable state.last (breakClass next) = true ∨
            breakClass next ∈ [.extend, .joiner] ∨ breakClass next = .spacingMark ∨
            state.last = .prepend ∨
            state.conjunct = .linked ∧ conjunctRole next = .consonant ∨
            state.pictograph = .joined ∧ breakClass next = .pictograph ∨
            state.oddFlags = true ∧ breakClass next = .flag) := by
  simp only [joins, ← isControl_iff, List.mem_cons, List.not_mem_nil, or_false]
  split_ifs <;> grind

@[simp]
theorem after_concat_last (front : List Char) (last : Char) :
    (after (front ++ [last])).last = breakClass last := by
  rw [after_concat]
  rfl

/-- Behind a text the state joins what belongs together. -/
theorem joins_after_concat_iff (front : List Char) (last next : Char) :
    (after (front ++ [last])).joins next = true ↔ Joined (front ++ [last]) next := by
  have odd := (after_oddFlags_iff (front ++ [last])).1
  rw [joins_iff, Joined, continues_iff, after_concat_last, continuesSyllable_iff,
    after_conjunct_eq_linked_iff, after_pictograph_eq_joined_iff, odd]
  simp only [concat_mem_endsWith, List.mem_singleton, or_assoc]

theorem joins_initial (next : Char) : initial.joins next = false := by
  simp [joins, initial, isControl]

/-! ## What the state forgets -/

/-- A control ends everything that a rule could look back to. -/
theorem after_of_isControl {before : List Char}
    (control : isControl (after before).last = true) :
    after before = ⟨(after before).last, .absent, false, .absent⟩ := by
  induction before using List.reverseRecOn with
  | nil => rfl
  | append_singleton before char ih =>
      rw [after_concat_last] at control
      have role := conjunctRole_of_isControl control
      rw [after_concat, advance, role]
      cases charClass : breakClass char <;> simp_all [advancePictograph, advanceConjunct, isControl]

theorem advancePictograph_of_notMem {charClass : BreakClass}
    (apart : charClass ∉ [.extend, .joiner]) (state : PictographState) :
    advancePictograph state charClass = advancePictograph .absent charClass := by
  cases charClass <;> simp_all [advancePictograph]

theorem advanceConjunct_of_notMem {role : ConjunctRole} (apart : role ∉ [.between, .linker])
    (state : ConjunctState) : advanceConjunct state role = advanceConjunct .absent role := by
  cases role <;> simp_all [advanceConjunct]

theorem advance_eq_advance_initial {state : BreakState} {next : Char}
    (apart : breakClass next ∉ [.extend, .joiner])
    (closed : breakClass next = .flag → state.oddFlags = false) :
    state.advance next = initial.advance next := by
  have mark : conjunctRole next ∉ [.between, .linker] := fun mark => apart (breakClass_of_mark mark)
  have flags : (if breakClass next = .flag then !state.oddFlags else false) =
      if breakClass next = .flag then !initial.oddFlags else false := by
    split
    · next flag => rw [closed flag, initial]
    · rfl
  simp only [advance]
  rw [advancePictograph_of_notMem apart, advanceConjunct_of_notMem mark, flags]
  rfl

/-- What begins behind a cut is read as if there were no text before it. Whatever extends a grapheme
is cut off only by a control, and a control leaves nothing to look back to. A pictograph and a
consonant begin anew, and a flag letter is cut off only where no pair is open. -/
theorem advance_of_joins_eq_false {before : List Char} {next : Char}
    (cut : (after before).joins next = false) :
    (after before).advance next = initial.advance next := by
  by_cases control : isControl (after before).last = true
  · rw [after_of_isControl control]
    rfl
  · rw [← Bool.not_eq_true, joins_iff, ← isControl_iff, ← isControl_iff] at cut
    apply advance_eq_advance_initial
    · intro extending
      have solid : isControl (breakClass next) ≠ true := by
        rcases List.mem_cons.mp extending with extend | joiner
        · simp [extend, isControl]
        · simp [List.mem_singleton.mp joiner, isControl]
      exact cut (.inr ⟨control, solid, .inr (.inl extending)⟩)
    · intro flag
      have solid : isControl (breakClass next) ≠ true := by simp [flag, isControl]
      rw [← Bool.not_eq_true]
      intro opened
      exact cut (.inr ⟨control, solid, by simp [flag, opened]⟩)

/-- From a cut on, the state does not depend on the text before it. -/
theorem after_append_of_joins_eq_false {before : List Char} {next : Char}
    (cut : (after before).joins next = false) (middle : List Char) :
    after (before ++ next :: middle) = after (next :: middle) := by
  rw [after_append, List.foldl_cons, advance_of_joins_eq_false cut]
  rfl

end BreakState

/-! ## Boundaries -/

theorem isBoundary_cons_iff {before rest : List Char} {next : Char} :
    IsBoundary before (next :: rest) ↔ (BreakState.after before).joins next = false := by
  cases before using List.reverseRecOn with
  | nil => simp [IsBoundary, BreakState.joins_initial]
  | append_singleton front last =>
      rw [← Bool.not_eq_true, BreakState.joins_after_concat_iff]
      simp [IsBoundary]

instance (before rest : List Char) : Decidable (IsBoundary before rest) :=
  match rest with
  | [] => inferInstanceAs (Decidable (before ≠ []))
  | _ :: _ => decidable_of_iff _ isBoundary_cons_iff.symm

/-- Nothing before a boundary has a part in where the text behind it may be cut. -/
theorem isBoundary_append_iff {before middle rest : List Char}
    (cut : IsBoundary before (middle ++ rest)) (filled : middle ≠ []) :
    IsBoundary (before ++ middle) rest ↔ IsBoundary middle rest := by
  obtain ⟨first, others, rfl⟩ := List.exists_cons_of_ne_nil filled
  cases rest with
  | nil => simp [IsBoundary]
  | cons next rest =>
      rw [isBoundary_cons_iff, isBoundary_cons_iff,
        BreakState.after_append_of_joins_eq_false (isBoundary_cons_iff.mp cut)]

/-- The four letters of two flags: they are counted in pairs from the boundary on. -/
example : IsBoundary ['🇩', '🇪'] ['🇫', '🇷'] ∧ ¬ IsBoundary ['🇩', '🇪', '🇫'] ['🇷'] := by
  decide +kernel

end PuzzleKit.Text
