/-!
# Ranges of characters

A property of characters is kept as the list of its ranges of code points, in ascending order and
with both ends of each range included.
-/

set_option autoImplicit false

namespace PuzzleKit.Text

/-- Whether a code point lies in one of the ranges. The search stops at the first range that begins
behind it. -/
def inRanges (code : Nat) : List (Nat × Nat) → Bool
  | [] => false
  | (first, last) :: ranges =>
      if code < first then false
      else if code ≤ last then true
      else inRanges code ranges

/-- Whether the ranges are in ascending order and disjoint, starting from `floor`. -/
def ascending (floor : Nat) : List (Nat × Nat) → Bool
  | [] => true
  | (first, last) :: ranges => floor ≤ first && first ≤ last && ascending (last + 1) ranges

theorem lt_of_mem_of_ascending {floor code : Nat} {ranges : List (Nat × Nat)}
    (sorted : ascending floor ranges = true) (before : code < floor)
    (range : Nat × Nat) (member : range ∈ ranges) : code < range.1 := by
  induction ranges generalizing floor with
  | nil => cases member
  | cons head ranges ih =>
      simp only [ascending, Bool.and_eq_true, decide_eq_true_eq] at sorted
      rcases List.mem_cons.mp member with rfl | member
      · omega
      · exact ih sorted.2 (by omega) member

/-- In ascending ranges the search finds a code point exactly if one of the ranges holds it. -/
theorem inRanges_iff {floor code : Nat} {ranges : List (Nat × Nat)}
    (sorted : ascending floor ranges = true) :
    inRanges code ranges = true ↔ ∃ range ∈ ranges, range.1 ≤ code ∧ code ≤ range.2 := by
  induction ranges generalizing floor with
  | nil => simp [inRanges]
  | cons head ranges ih =>
      simp only [ascending, Bool.and_eq_true, decide_eq_true_eq] at sorted
      have others := ih sorted.2
      simp only [inRanges, List.mem_cons, exists_eq_or_imp]
      split
      · next before =>
          have noneHolds : ¬ ∃ range ∈ ranges, range.1 ≤ code ∧ code ≤ range.2 := by
            rintro ⟨range, member, firstLe, _⟩
            have := lt_of_mem_of_ascending sorted.2 (by omega : code < head.2 + 1) range member
            omega
          simp only [noneHolds, or_false, Bool.false_eq_true, false_iff]
          omega
      · split
        · simp only [true_iff]; left; omega
        · rw [others]
          constructor
          · exact Or.inr
          · rintro (held | held)
            · omega
            · exact held

end PuzzleKit.Text
