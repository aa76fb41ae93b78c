import Mathlib.Data.List.Perm.Basic
import PuzzleKit.Table

/-!
# Tables turned over

Cells that a row lacks leave no gap in a column: the cells below them move up. So turning a table
over twice gives it back only if nothing has to move, which is to say that no row is longer than the
row above it. A table that was turned over is always of this kind, and it has no empty row.
-/

set_option autoImplicit false

namespace PuzzleKit.Table

variable {α : Type}

def cell? (rows : List (List α)) (row index : Nat) : Option α :=
  rows[row]?.bind fun cells => cells[index]?

/-- No row is longer than the row above it. -/
def Narrows (rows : List (List α)) : Prop :=
  rows.IsChain fun upper lower => lower.length ≤ upper.length

/-! ## Columns -/

theorem column_cons (row : List α) (rows : List (List α)) (index : Nat) :
    column (row :: rows) index = row[index]?.toList ++ column rows index := by
  cases found : row[index]? with
  | none => simp [column, found]
  | some cell => simp [column, found]

theorem column_eq_nil {rows : List (List α)} {index : Nat}
    (short : ∀ row ∈ rows, row.length ≤ index) : column rows index = [] := by
  apply List.filterMap_eq_nil_iff.mpr
  intro row member
  exact List.getElem?_eq_none (short row member)

theorem length_column (rows : List (List α)) (index : Nat) :
    (column rows index).length = rows.countP fun row => index < row.length := by
  rw [column, List.length_filterMap_eq_countP]
  apply List.countP_congr
  intro row _
  rw [isSome_getElem?, decide_eq_true_eq]

theorem length_column_le {index later : Nat} (le : index ≤ later) (rows : List (List α)) :
    (column rows later).length ≤ (column rows index).length := by
  rw [length_column, length_column]
  apply List.countP_mono_left
  intro row _ long
  rw [decide_eq_true_eq] at long ⊢
  exact Nat.lt_of_le_of_lt le long

/-- A column takes one cell from every row that is long enough, in the order of the rows. -/
theorem forall₂_column (rows : List (List α)) (index : Nat) :
    List.Forall₂ (fun row cell => row[index]? = some cell)
      (rows.filter fun row => index < row.length) (column rows index) := by
  induction rows with
  | nil => exact .nil
  | cons row rows ih =>
      rw [column_cons, List.filter_cons]
      by_cases long : index < row.length
      · rw [if_pos (decide_eq_true long), List.getElem?_eq_getElem long]
        exact .cons (List.getElem?_eq_getElem long) ih
      · rw [if_neg (mt of_decide_eq_true long), List.getElem?_eq_none (Nat.le_of_not_lt long)]
        exact ih

theorem flatMap_range_getElem? {row : List α} {width : Nat} (le : row.length ≤ width) :
    ((List.range width).flatMap fun index => row[index]?.toList) = row := by
  induction row generalizing width with
  | nil => simp
  | cons cell row ih =>
      cases width with
      | zero => exact absurd le (Nat.not_succ_le_zero _)
      | succ width =>
          rw [List.range_succ_eq_map, List.flatMap_cons, List.flatMap_map]
          exact congrArg (cell :: ·) (ih (Nat.le_of_succ_le_succ le))

/-- With a column for every cell of the longest row, no cell is lost and none is doubled. -/
theorem flatMap_column_perm {rows : List (List α)} {width : Nat}
    (fits : ∀ row ∈ rows, row.length ≤ width) :
    ((List.range width).flatMap (column rows)).Perm rows.flatten := by
  induction rows with
  | nil => simp [column]
  | cons row rows ih =>
      obtain ⟨rowFits, othersFit⟩ := List.forall_mem_cons.mp fits
      have firstApart := List.flatMap_append_perm (List.range width)
        (fun index => row[index]?.toList) (column rows)
      rw [flatMap_range_getElem? rowFits] at firstApart
      have columns : column (row :: rows) = fun index => row[index]?.toList ++ column rows index :=
        funext (column_cons row rows)
      rw [columns, List.flatten_cons]
      exact firstApart.symm.trans ((ih othersFit).append_left row)

/-! ## Rows that never get longer -/

theorem Narrows.length_le_of_head {rows : List (List α)} (narrows : Narrows rows) :
    ∀ row ∈ rows, row.length ≤ (rows.headD []).length := by
  cases rows with
  | nil => exact List.forall_mem_nil _
  | cons first rows =>
      have ordered := List.pairwise_cons.mp (List.isChain_iff_pairwise.mp narrows)
      exact List.forall_mem_cons.mpr ⟨Nat.le_refl _, ordered.1⟩

/-- Where no row is longer than the row above it, no cell of a column moves up. -/
theorem Narrows.getElem?_column {rows : List (List α)} (narrows : Narrows rows) (row index : Nat) :
    (column rows index)[row]? = cell? rows row index := by
  induction rows generalizing row with
  | nil => rfl
  | cons first rows ih =>
      rcases Nat.lt_or_ge index first.length with long | short
      · rw [column_cons, List.getElem?_eq_getElem long]
        cases row with
        | zero => exact (List.getElem?_eq_getElem long).symm
        | succ row => exact ih (List.IsChain.of_cons narrows) row
      · have allShort : ∀ below ∈ first :: rows, below.length ≤ index :=
          fun below member => Nat.le_trans (narrows.length_le_of_head below member) short
        rw [column_eq_nil allShort, cell?]
        cases found : (first :: rows)[row]? with
        | none => rfl
        | some below =>
            exact (List.getElem?_eq_none (allShort below (List.mem_of_getElem? found))).symm

/-! ## Tables without empty rows -/

theorem cell?_first_ne_none {first : List α} {rows : List (List α)} (full : [] ∉ first :: rows) :
    cell? (first :: rows) 0 0 ≠ none := by
  cases first with
  | nil => exact absurd List.mem_cons_self full
  | cons cell first => exact Option.some_ne_none cell

/-- Without empty rows a table is known by its cells. -/
theorem ext_cell? {left right : List (List α)} (leftFull : [] ∉ left) (rightFull : [] ∉ right)
    (same : ∀ row index, cell? left row index = cell? right row index) : left = right := by
  induction left generalizing right with
  | nil =>
      cases right with
      | nil => rfl
      | cons first right => exact absurd (same 0 0).symm (cell?_first_ne_none rightFull)
  | cons first left ih =>
      cases right with
      | nil => exact absurd (same 0 0) (cell?_first_ne_none leftFull)
      | cons other right =>
          have firstEq : first = other := List.ext_getElem? (same 0)
          have othersEq : left = right :=
            ih (mt (List.mem_cons_of_mem _) leftFull) (mt (List.mem_cons_of_mem _) rightFull)
              fun row => same (row + 1)
          rw [firstEq, othersEq]

/-! ## Tables turned over -/

theorem transpose_eq (rows : List (List α)) :
    transpose rows = (List.range (rows.headD []).length).map (column rows) := by
  cases rows <;> rfl

theorem length_transpose (rows : List (List α)) :
    (transpose rows).length = (rows.headD []).length := by
  rw [transpose_eq, List.length_map, List.length_range]

theorem getElem?_transpose_eq_some_iff {rows : List (List α)} {index : Nat} {cells : List α} :
    (transpose rows)[index]? = some cells ↔
      index < (rows.headD []).length ∧ column rows index = cells := by
  rw [List.getElem?_eq_some_iff, ← length_transpose rows]
  simp only [transpose_eq, List.getElem_map, List.getElem_range]
  exact exists_prop

theorem transpose_narrows (rows : List (List α)) : Narrows (transpose rows) := by
  rw [transpose_eq]
  apply List.Pairwise.isChain
  rw [List.pairwise_map]
  exact List.pairwise_lt_range.imp fun lt => length_column_le (Nat.le_of_lt lt) rows

/-- Every column has a cell of the first row at least. -/
theorem nil_notMem_transpose (rows : List (List α)) : [] ∉ transpose rows := by
  intro member
  obtain ⟨index, found⟩ := List.mem_iff_getElem?.mp member
  obtain ⟨inside, empty⟩ := getElem?_transpose_eq_some_iff.mp found
  cases rows with
  | nil => exact index.not_lt_zero inside
  | cons first rows =>
      change index < first.length at inside
      rw [column_cons, List.getElem?_eq_getElem inside] at empty
      cases empty

theorem flatten_transpose_perm {rows : List (List α)}
    (fits : ∀ row ∈ rows, row.length ≤ (rows.headD []).length) :
    (transpose rows).flatten.Perm rows.flatten := by
  rw [transpose_eq, ← List.flatMap_def]
  exact flatMap_column_perm fits

theorem Narrows.cell?_transpose {rows : List (List α)} (narrows : Narrows rows)
    (row index : Nat) : cell? (transpose rows) index row = cell? rows row index := by
  rw [← narrows.getElem?_column, cell?]
  rcases Nat.lt_or_ge index (rows.headD []).length with inside | outside
  · rw [getElem?_transpose_eq_some_iff.mpr ⟨inside, rfl⟩]
    rfl
  · have allShort : ∀ below ∈ rows, below.length ≤ index :=
      fun below member => Nat.le_trans (narrows.length_le_of_head below member) outside
    rw [column_eq_nil allShort, List.getElem?_eq_none (length_transpose rows ▸ outside)]
    rfl

theorem transpose_transpose_eq_iff (rows : List (List α)) :
    transpose (transpose rows) = rows ↔ Narrows rows ∧ [] ∉ rows := by
  constructor
  · intro returns
    rw [← returns]
    exact ⟨transpose_narrows _, nil_notMem_transpose _⟩
  · rintro ⟨narrows, full⟩
    apply ext_cell? (nil_notMem_transpose _) full
    intro row index
    rw [(transpose_narrows rows).cell?_transpose, narrows.cell?_transpose]

/-- A table turned over has a row for every cell of the first row, made of the cells at that place
in the rows that are long enough, in their order; its rows never get longer. If the first row is the
longest, all cells of the table are there, each of them once. Turned over twice, a table is as it
was exactly if its rows never get longer and none of them is empty. -/
theorem transpose_of_ragged (rows : List (List α)) :
    (transpose rows).length = (rows.headD []).length ∧
    Narrows (transpose rows) ∧
    (∀ index cells, (transpose rows)[index]? = some cells →
      List.Forall₂ (fun row cell => row[index]? = some cell)
        (rows.filter fun row => index < row.length) cells) ∧
    ((∀ row ∈ rows, row.length ≤ (rows.headD []).length) →
      (transpose rows).flatten.Perm rows.flatten) ∧
    (transpose (transpose rows) = rows ↔ Narrows rows ∧ [] ∉ rows) := by
  refine ⟨length_transpose rows, transpose_narrows rows, ?_, flatten_transpose_perm,
    transpose_transpose_eq_iff rows⟩
  intro index cells found
  obtain ⟨-, rfl⟩ := getElem?_transpose_eq_some_iff.mp found
  exact forall₂_column rows index

/-- A short row in the middle: the cells below it move up in the columns that it does not reach. -/
theorem transpose_of_ragged_middle :
    (transpose [[1, 2, 3], [4], [5, 6]])[1]? = some [2, 6] ∧
    List.Forall₂ (fun row cell => row[1]? = some cell) [[1, 2, 3], [5, 6]] [2, 6] ∧
    (∀ row ∈ [[1, 2, 3], [4], [5, 6]], row.length ≤ 3) ∧
    (transpose [[1, 2, 3], [4], [5, 6]]).flatten.Perm [1, 2, 3, 4, 5, 6] := by
  have facts := transpose_of_ragged [[1, 2, 3], [4], [5, 6]]
  have moved : (transpose [[1, 2, 3], [4], [5, 6]])[1]? = some [2, 6] := by decide
  have fits : ∀ row ∈ [[1, 2, 3], [4], [5, 6]], row.length ≤ 3 := by decide
  exact ⟨moved, facts.2.2.1 1 [2, 6] moved, fits, facts.2.2.2.1 fits⟩

end PuzzleKit.Table
