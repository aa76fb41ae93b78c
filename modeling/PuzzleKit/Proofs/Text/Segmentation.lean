import PuzzleKit.Proofs.Text.BreakState

/-!
# Taking a text apart at its boundaries

The reader of graphemes goes from a boundary up to the next one and sees only the text between them
and behind. The first cluster of a text and the segments of the text behind it are the segments of
the whole text, because what lies before a boundary has no part in where the text behind it may be
cut.
-/

set_option autoImplicit false

namespace PuzzleKit.Text

/-! ## The first cluster of a text -/

/-- The text may be cut behind the cluster, and nowhere inside of it. -/
structure IsFirstCluster (cluster rest : List Char) : Prop where
  filled : cluster ≠ []
  isBoundary : IsBoundary cluster rest
  whole : ∀ front back, cluster = front ++ back → front ≠ [] → back ≠ [] →
    ¬ IsBoundary front (back ++ rest)

/-- From inside of a grapheme on, the state goes up to the next boundary. -/
theorem exists_graphemeTail {front : List Char} (filled : front ≠ []) (chars : List Char) :
    ∃ taken rest, chars = taken ++ rest ∧
      graphemeTail (BreakState.after front) chars = taken.length ∧
      IsBoundary (front ++ taken) rest ∧
      ∀ left right, taken = left ++ right → right ≠ [] →
        ¬ IsBoundary (front ++ left) (right ++ rest) := by
  induction chars generalizing front with
  | nil =>
      refine ⟨[], [], rfl, rfl, by simpa [IsBoundary] using filled, ?_⟩
      intro left right split more
      exact absurd (List.append_eq_nil_iff.mp split.symm).2 more
  | cons char chars ih =>
      cases joins : (BreakState.after front).joins char with
      | false =>
          refine ⟨[], char :: chars, rfl, by simp [graphemeTail, joins], ?_, ?_⟩
          · rw [List.append_nil]
            exact isBoundary_cons_iff.mpr joins
          · intro left right split more
            exact absurd (List.append_eq_nil_iff.mp split.symm).2 more
      | true =>
          have longer : front ++ [char] ≠ [] := by simp
          obtain ⟨taken, rest, rfl, length, cut, whole⟩ := ih longer
          rw [BreakState.after_concat] at length
          refine ⟨char :: taken, rest, rfl, by simp [graphemeTail, joins, length], ?_, ?_⟩
          · simpa using cut
          · intro left right split more
            cases left with
            | nil =>
                obtain rfl : char :: taken = right := split
                rw [List.append_nil, List.cons_append, isBoundary_cons_iff, joins]
                exact Bool.noConfusion
            | cons first left =>
                obtain ⟨rfl, same⟩ := List.cons.inj split
                simpa using whole left right same more

theorem exists_firstCluster (first : Char) (others : List Char) :
    ∃ cluster rest, first :: others = cluster ++ rest ∧
      graphemeLength (first :: others) = cluster.length ∧ IsFirstCluster cluster rest := by
  obtain ⟨taken, rest, rfl, length, cut, whole⟩ :=
    exists_graphemeTail (List.cons_ne_nil first []) others
  refine ⟨first :: taken, rest, rfl, congrArg Nat.succ length, List.cons_ne_nil _ _, cut, ?_⟩
  intro front back split filled more
  cases front with
  | nil => exact absurd rfl filled
  | cons head left =>
      obtain ⟨rfl, same⟩ := List.cons.inj split
      exact whole left back same more

/-! ## All clusters of a text -/

/-- A position before the clusters, behind them or between two of them. -/
def IsCut (clusters : List (List Char)) (before : List Char) : Prop :=
  clusters ≠ [] ∧ ∃ left right, clusters = left ++ right ∧ before = left.flatten

/-- The clusters are the text, taken apart at its boundaries. -/
structure Segments (text : List Char) (clusters : List (List Char)) : Prop where
  filled : ∀ cluster ∈ clusters, cluster ≠ []
  flatten_eq : clusters.flatten = text
  isCut_iff : ∀ before rest, before ++ rest = text → (IsCut clusters before ↔ IsBoundary before rest)

theorem isCut_cons_iff {cluster before : List Char} {clusters : List (List Char)} :
    IsCut (cluster :: clusters) before ↔
      before = [] ∨ ∃ middle, before = cluster ++ middle ∧ (middle = [] ∨ IsCut clusters middle) := by
  constructor
  · intro cut
    obtain ⟨_, left, right, split, rfl⟩ := cut
    cases left with
    | nil => exact .inl rfl
    | cons first left =>
        obtain ⟨rfl, rfl⟩ := List.cons.inj split
        refine .inr ⟨left.flatten, rfl, ?_⟩
        by_cases last : left ++ right = []
        · rw [(List.append_eq_nil_iff.mp last).1]
          exact .inl rfl
        · exact .inr ⟨last, left, right, rfl, rfl⟩
  · intro position
    refine ⟨List.cons_ne_nil _ _, ?_⟩
    rcases position with rfl | ⟨middle, rfl, rfl | ⟨_, left, right, rfl, rfl⟩⟩
    · exact ⟨[], cluster :: clusters, rfl, rfl⟩
    · exact ⟨[cluster], clusters, rfl, by simp⟩
    · exact ⟨cluster :: left, right, rfl, rfl⟩

theorem segments_nil : Segments [] [] where
  filled _ member := nomatch member
  flatten_eq := rfl
  isCut_iff before rest split := by
    obtain ⟨rfl, rfl⟩ := List.append_eq_nil_iff.mp split
    simp [IsCut, IsBoundary]

/-- A position in a text that begins with a cluster is inside of the cluster or behind it. -/
theorem position_cases {cluster rest before after : List Char}
    (split : before ++ after = cluster ++ rest) :
    (∃ back, back ≠ [] ∧ cluster = before ++ back ∧ after = back ++ rest) ∨
      ∃ middle, before = cluster ++ middle ∧ rest = middle ++ after := by
  rcases List.append_eq_append_iff.mp split with ⟨back, inside, behind⟩ | position
  · by_cases last : back = []
    · exact .inr ⟨[], by simp [inside, last], by simp [behind, last]⟩
    · exact .inl ⟨back, last, inside, behind⟩
  · exact .inr position

/-- A first cluster and the segments of the text behind it are the segments of the whole text. -/
theorem IsFirstCluster.segments {cluster rest : List Char} {clusters : List (List Char)}
    (first : IsFirstCluster cluster rest) (others : Segments rest clusters) :
    Segments (cluster ++ rest) (cluster :: clusters) where
  filled := List.forall_mem_cons.mpr ⟨first.filled, others.filled⟩
  flatten_eq := by rw [List.flatten_cons, others.flatten_eq]
  isCut_iff before after split := by
    rw [isCut_cons_iff]
    rcases position_cases split with ⟨back, more, rfl, rfl⟩ | ⟨middle, rfl, rfl⟩
    · by_cases start : before = []
      · obtain ⟨next, chars, rfl⟩ := List.exists_cons_of_ne_nil more
        simp [start, IsBoundary]
      · have uncut := first.whole before back rfl start more
        simp [start, more, uncut]
    · by_cases here : middle = []
      · have cut := first.isBoundary
        rw [here] at cut
        simpa [here] using cut
      · rw [isBoundary_append_iff first.isBoundary here, ← others.isCut_iff middle after rfl]
        simp [here, first.filled]

end PuzzleKit.Text
