import Mathlib.Computability.Language
import PuzzleKit.Proofs.Rows.Token
import PuzzleKit.Proofs.Text.Lines

/-!
# The form of a row

A row is either blank, or values with gaps between them and blanks around them. The form is stated
twice: as a relation that also names the values, and as a regular language. The row parser takes a
line of this form as it stands, and whatever it takes has this form.
-/

set_option autoImplicit false

namespace PuzzleKit.Rows

open Computability

variable {α : Type}

/-- Values with a gap between any two. -/
inductive IsValues (IsToken : List Char → α → Prop) : List Char → List α → Prop where
  | last {text : List Char} {value : α} :
      IsToken text value → IsValues IsToken text [value]
  | more {text gap others : List Char} {value : α} {values : List α} :
      IsToken text value → gap ≠ [] → (∀ char ∈ gap, isGapChar char = true) →
      IsValues IsToken others values →
      IsValues IsToken (text ++ (gap ++ others)) (value :: values)

/-- The text of a row and its values: blanks only, or values with blanks around them. -/
inductive IsRow (IsToken : List Char → α → Prop) : List Char → List α → Prop where
  | blank {text : List Char} :
      (∀ char ∈ text, isBlank char = true) → IsRow IsToken text []
  | values {before middle after : List Char} {values : List α} :
      (∀ char ∈ before, isBlank char = true) → IsValues IsToken middle values →
      (∀ char ∈ after, isBlank char = true) → IsRow IsToken (before ++ (middle ++ after)) values

/-! ## The language of rows -/

/-- The texts of a single character of a class. -/
def single (accepts : Char → Bool) : Language Char :=
  {text | ∃ char, accepts char = true ∧ text = [char]}

def tokenLanguage (IsToken : List Char → α → Prop) : Language Char :=
  {text | ∃ value, IsToken text value}

/-- Blanks, then perhaps a token and any number of gaps and tokens, then blanks. -/
def rowLanguage (tokens : Language Char) : Language Char :=
  (single isBlank)∗ *
    (1 + tokens * (single isGapChar * (single isGapChar)∗ * tokens)∗) * (single isBlank)∗

theorem mem_single_kstar {accepts : Char → Bool} {text : List Char} :
    text ∈ (single accepts)∗ ↔ ∀ char ∈ text, accepts char = true := by
  rw [Language.mem_kstar]
  constructor
  · intro parts char member
    obtain ⟨pieces, rfl, singles⟩ := parts
    obtain ⟨piece, pieceMember, charMember⟩ := List.mem_flatten.mp member
    obtain ⟨only, accepted, rfl⟩ := singles piece pieceMember
    exact List.mem_singleton.mp charMember ▸ accepted
  · intro all
    refine ⟨text.map fun char => [char], by simp [← List.flatMap_def], ?_⟩
    intro piece member
    obtain ⟨char, charMember, rfl⟩ := List.mem_map.mp member
    exact ⟨char, all char charMember, rfl⟩

theorem mem_single_mul_kstar {accepts : Char → Bool} {text : List Char} :
    text ∈ single accepts * (single accepts)∗ ↔
      text ≠ [] ∧ ∀ char ∈ text, accepts char = true := by
  rw [Language.mem_mul]
  constructor
  · intro parts
    obtain ⟨_, ⟨char, accepted, rfl⟩, others, all, rfl⟩ := parts
    rw [mem_single_kstar] at all
    exact ⟨by simp, by simpa [accepted] using all⟩
  · intro parts
    obtain ⟨filled, all⟩ := parts
    cases text with
    | nil => exact absurd rfl filled
    | cons char others =>
        rw [List.forall_mem_cons] at all
        exact ⟨[char], ⟨char, all.1, rfl⟩, others, mem_single_kstar.mpr all.2, rfl⟩

theorem mem_values_iff {IsToken : List Char → α → Prop} {text : List Char} :
    text ∈ tokenLanguage IsToken *
        (single isGapChar * (single isGapChar)∗ * tokenLanguage IsToken)∗ ↔
      ∃ values, IsValues IsToken text values := by
  constructor
  · intro member
    obtain ⟨first, ⟨value, token⟩, rest, others, rfl⟩ := Language.mem_mul.mp member
    obtain ⟨pieces, rfl, gapped⟩ := Language.mem_kstar.mp others
    clear member others
    induction pieces generalizing first value with
    | nil => exact ⟨[value], by simpa using IsValues.last token⟩
    | cons piece pieces ih =>
        rw [List.forall_mem_cons] at gapped
        obtain ⟨gap, isGap, next, ⟨_, nextToken⟩, rfl⟩ := Language.mem_mul.mp gapped.1
        rw [mem_single_mul_kstar] at isGap
        obtain ⟨values, read⟩ := ih next _ nextToken gapped.2
        refine ⟨value :: values, ?_⟩
        simpa using IsValues.more token isGap.1 isGap.2 read
  · intro parts
    obtain ⟨values, read⟩ := parts
    induction read with
    | @last text value token =>
        exact Language.mem_mul.mpr ⟨text, ⟨value, token⟩, [], Language.nil_mem_kstar _, by simp⟩
    | @more text gap others value values token filled gaps _ ih =>
        obtain ⟨next, nextToken, rest, member, rfl⟩ := Language.mem_mul.mp ih
        obtain ⟨pieces, rfl, gapped⟩ := Language.mem_kstar.mp member
        have piece : gap ++ next ∈ single isGapChar * (single isGapChar)∗ *
            tokenLanguage IsToken :=
          Language.mem_mul.mpr ⟨gap, mem_single_mul_kstar.mpr ⟨filled, gaps⟩, next, nextToken, rfl⟩
        refine Language.mem_mul.mpr ⟨text, ⟨value, token⟩, gap ++ (next ++ pieces.flatten), ?_, rfl⟩
        refine Language.mem_kstar.mpr ⟨(gap ++ next) :: pieces, by simp, ?_⟩
        exact List.forall_mem_cons.mpr ⟨piece, gapped⟩

theorem mem_rowLanguage_iff {IsToken : List Char → α → Prop} {text : List Char} :
    text ∈ rowLanguage (tokenLanguage IsToken) ↔
      ∃ values, IsRow IsToken text values := by
  rw [rowLanguage, Language.mem_mul]
  constructor
  · intro parts
    obtain ⟨front, frontMember, after, blankAfter, rfl⟩ := parts
    obtain ⟨before, blankBefore, middle, member, rfl⟩ := Language.mem_mul.mp frontMember
    rw [mem_single_kstar] at blankBefore blankAfter
    rw [Language.mem_add, Language.mem_one, mem_values_iff] at member
    rcases member with rfl | ⟨values, read⟩
    · refine ⟨[], .blank ?_⟩
      simpa [or_imp, forall_and] using ⟨blankBefore, blankAfter⟩
    · exact ⟨values, by simpa using IsRow.values blankBefore read blankAfter⟩
  · intro parts
    obtain ⟨values, row⟩ := parts
    cases row with
    | blank all =>
        refine ⟨text, ?_, [], Language.nil_mem_kstar _, by simp⟩
        refine Language.mem_mul.mpr ⟨text, mem_single_kstar.mpr all, [], ?_, by simp⟩
        exact (Language.mem_add _ _ _).mpr (.inl rfl)
    | @values before middle after _ blankBefore read blankAfter =>
        refine ⟨before ++ middle, ?_, after, mem_single_kstar.mpr blankAfter, by simp⟩
        refine Language.mem_mul.mpr ⟨before, mem_single_kstar.mpr blankBefore, middle, ?_, rfl⟩
        exact (Language.mem_add _ _ _).mpr (.inr (mem_values_iff.mpr ⟨values, read⟩))

end PuzzleKit.Rows
