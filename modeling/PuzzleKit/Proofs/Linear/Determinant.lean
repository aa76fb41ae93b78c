import Mathlib.LinearAlgebra.Matrix.Determinant.Basic
import PuzzleKit.Proofs.Linear.Product

/-!
# Determinants of exact matrices

The expansion of a square list of rows comes to square lists only, each of them smaller by one than
the one before, and it never asks for an entry that is missing. What it computes is the determinant
of algebra: the sum over all permutations, which does not know rows from columns.
-/

set_option autoImplicit false

namespace PuzzleKit

namespace Determinant

/-! ## Square lists of rows -/

section Storage

variable {α : Type}

structure IsSquare (order : Nat) (rows : List (List α)) : Prop where
  length_eq : rows.length = order
  row_length_eq : ∀ row ∈ rows, row.length = order

/-- The lists of rows that an expansion comes to, and how many rows above them it has expanded. -/
inductive Descends (rows : List (List α)) : Nat → List (List α) → Prop where
  | here : Descends rows 0 rows
  | minor {depth : Nat} {top : List α} {others : List (List α)} {column : Nat} :
      Descends rows depth (top :: others) → others.length + 1 ≠ 2 → column < others.length + 1 →
      Descends rows (depth + 1) (minor others column)

theorem IsSquare.minor {order column : Nat} {top : List α} {others : List (List α)}
    (square : IsSquare (order + 1) (top :: others)) (inside : column < order + 1) :
    IsSquare order (minor others column) where
  length_eq := by
    have counted := square.length_eq
    rw [List.length_cons] at counted
    rw [Determinant.minor, List.length_map]
    omega
  row_length_eq row member := by
    obtain ⟨whole, below, rfl⟩ := List.mem_map.mp member
    have counted := square.row_length_eq whole (List.mem_cons_of_mem _ below)
    rw [List.length_eraseIdx_of_lt (counted ▸ inside), counted]
    rfl

theorem Descends.isSquare {order depth : Nat} {rows below : List (List α)}
    (square : IsSquare (order + 2) rows) (descends : Descends rows depth below) :
    depth ≤ order ∧ IsSquare (order + 2 - depth) below := by
  induction descends with
  | here => exact ⟨Nat.zero_le _, square⟩
  | @minor depth top others column _ large inside ih =>
      obtain ⟨le, above⟩ := ih
      have counted := above.length_eq
      rw [List.length_cons] at counted
      have deeper : depth + 1 ≤ order := by omega
      have orderEq : order + 2 - depth = order + 2 - (depth + 1) + 1 := by omega
      exact ⟨deeper, IsSquare.minor (orderEq ▸ above) (by omega)⟩

/-- The rows of a matrix as lists. -/
def tableOf {m n : Nat} (matrix : Matrix (Fin m) (Fin n) α) : List (List α) :=
  List.ofFn fun row => List.ofFn (matrix row)

theorem IsSquare.exists_tableOf {order : Nat} {rows : List (List α)}
    (square : IsSquare order rows) :
    ∃ matrix : Matrix (Fin order) (Fin order) α, rows = tableOf matrix := by
  obtain ⟨rfl, counted⟩ := square
  have width (row : Fin rows.length) : (rows.get row).length = rows.length :=
    counted _ (List.get_mem rows row)
  refine ⟨fun row column => (rows.get row).get (column.cast (width row).symm), ?_⟩
  have rowEq (row : Fin rows.length) :
      List.ofFn (fun column => (rows.get row).get (column.cast (width row).symm)) = rows.get row := by
    rw [← List.ofFn_congr (width row) (rows.get row).get, List.ofFn_get]
  simp only [tableOf, rowEq, List.ofFn_get]

theorem tableOf_isSquare {order : Nat} (matrix : Matrix (Fin order) (Fin order) α) :
    IsSquare order (tableOf matrix) where
  length_eq := List.length_ofFn
  row_length_eq row member := by
    obtain ⟨index, rfl⟩ := (List.mem_ofFn' _ _).mp member
    exact List.length_ofFn

theorem eraseIdx_ofFn {count : Nat} (entry : Fin (count + 1) → α) (without : Fin (count + 1)) :
    (List.ofFn entry).eraseIdx without = List.ofFn fun index => entry (without.succAbove index) := by
  apply List.ext_getElem
  · have inside : without.val < (List.ofFn entry).length := by simp [without.isLt]
    rw [List.length_eraseIdx_of_lt inside, List.length_ofFn, List.length_ofFn]
    rfl
  · intro index below above
    have inside : index < count := above.trans_eq List.length_ofFn
    simp only [List.getElem_eraseIdx, List.getElem_ofFn]
    split
    · next before =>
        exact congrArg entry (Fin.succAbove_of_castSucc_lt without ⟨index, inside⟩ before).symm
    · next behind =>
        have le := Nat.le_of_not_lt behind
        exact congrArg entry (Fin.succAbove_of_le_castSucc without ⟨index, inside⟩ le).symm

theorem tableOf_succ {m n : Nat} (matrix : Matrix (Fin (m + 1)) (Fin n) α) :
    tableOf matrix = List.ofFn (matrix 0) :: tableOf (matrix.submatrix Fin.succ id) :=
  List.ofFn_succ

theorem minor_tableOf {m n : Nat} (matrix : Matrix (Fin m) (Fin (n + 1)) α)
    (without : Fin (n + 1)) :
    minor (tableOf matrix) without = tableOf (matrix.submatrix id without.succAbove) := by
  simp only [minor, tableOf, List.map_ofFn]
  congr 1
  funext row
  exact eraseIdx_ofFn (matrix row) without

end Storage

/-! ## Expansion -/

theorem expansion?_cons {α : Type} [Scalar α] {top : List α} {others : List (List α)}
    (large : others.length + 1 ≠ 2) :
    expansion? (top :: others) = do
      let terms ← (List.range (others.length + 1)).mapM fun column => do
        return sign column * (← top[column]?) * (← expansion? (minor others column))
      return Scalar.sum terms := by
  apply expansion?.eq_3
  rintro bottom rfl
  exact large rfl

theorem mapM_range_eq_some {β : Type} {count : Nat} {term? : Nat → Option β} {term : Fin count → β}
    (each : ∀ index : Fin count, term? index = some (term index)) :
    (List.range count).mapM term? = some (List.ofFn term) := by
  have defined : term? ∘ Fin.val = fun index : Fin count => pure (term index) := funext each
  rw [← List.map_coe_finRange_eq_range, List.mapM_map, defined, List.mapM_pure, List.ofFn_eq_map]
  rfl

section Expansion

open scoped Scalar

variable {R : Type} [CommRing R]

theorem sign_eq_pow (column : Nat) : (sign column : R) = (-1) ^ column := by
  rw [sign]
  split
  · next even => exact (Even.neg_one_pow (Nat.even_iff.mpr even)).symm
  · next odd => exact (Odd.neg_one_pow (Nat.odd_iff.mpr (Nat.mod_two_ne_zero.mp odd))).symm

/-- No entry of a table is missing, so the terms are those of the determinant along the first row. -/
theorem expansion?_tableOf {order : Nat} (matrix : Matrix (Fin (order + 2)) (Fin (order + 2)) R) :
    expansion? (tableOf matrix) = some matrix.det := by
  induction order with
  | zero =>
      have rowsEq : tableOf matrix = [[matrix 0 0, matrix 0 1], [matrix 1 0, matrix 1 1]] := by
        simp [tableOf, List.ofFn_succ]
      rw [rowsEq, expansion?, Matrix.det_fin_two, mul_comm (matrix 0 1)]
      rfl
  | succ order ih =>
      have counted : (tableOf (matrix.submatrix Fin.succ id)).length = order + 2 :=
        List.length_ofFn
      have each (column : Fin (order + 3)) : (do
          return sign column.val * (← (List.ofFn (matrix 0))[column.val]?) *
            (← expansion? (minor (tableOf (matrix.submatrix Fin.succ id)) column.val))) =
          some ((-1) ^ column.val * matrix 0 column *
            (matrix.submatrix Fin.succ column.succAbove).det) := by
        have entryEq : (List.ofFn (matrix 0))[column.val]? = some (matrix 0 column) := by
          rw [List.getElem?_ofFn, dif_pos column.isLt]
        rw [entryEq, minor_tableOf, ih, sign_eq_pow]
        rfl
      rw [tableOf_succ, expansion?_cons (by omega), counted, mapM_range_eq_some each,
        Matrix.det_succ_row_zero]
      exact congrArg some (Scalar.sum_ofFn _)

theorem IsSquare.isSome_expansion? {order : Nat} {rows : List (List R)}
    (square : IsSquare (order + 2) rows) : (expansion? rows).isSome = true := by
  obtain ⟨matrix, rfl⟩ := square.exists_tableOf
  rw [expansion?_tableOf]
  rfl

end Expansion

end Determinant

namespace Mat

open Determinant
open scoped Scalar

theorem table_eq {α : Type} {m n : Nat} (matrix : Mat α m n) :
    matrix.table = tableOf matrix.toMatrix := by
  have rowEq (vector : Vec α n) : vector.components.toList = List.ofFn vector.get := by
    apply List.ext_getElem
    · simp
    · intro column inside below
      rw [List.getElem_ofFn]
      rfl
  simp only [table, rowEq]
  apply List.ext_getElem
  · simp [tableOf]
  · intro row inside below
    simp only [tableOf, List.getElem_map, List.getElem_ofFn]
    rfl

variable {R : Type} [CommRing R] {m n order : Nat}

theorem determinant_eq_det (matrix : Mat R (order + 2) (order + 2)) :
    matrix.determinant = some matrix.toMatrix.det := by
  rw [determinant, if_neg (by omega), table_eq, expansion?_tableOf]

theorem determinant_eq_none_iff (matrix : Mat R m n) :
    matrix.determinant = none ↔ m ≠ n ∨ m < 2 := by
  constructor
  · intro undefined
    by_contra other
    obtain ⟨rfl, large⟩ : m = n ∧ 2 ≤ m := by omega
    obtain ⟨order, rfl⟩ := Nat.exists_eq_add_of_le' large
    cases undefined.symm.trans (determinant_eq_det matrix)
  · intro undefined
    exact if_pos undefined

/-- The determinant of a square matrix of order two or more is the sum of all products of one entry
from every row and every column, each with the sign of its permutation. The expansion comes to square
lists only, one order down at every step and never below order two, and every entry that it asks for
is there. Every other matrix has no determinant. -/
theorem determinant_eq_leibniz (matrix : Mat R (order + 2) (order + 2)) (other : Mat R m n) :
    matrix.determinant = some (∑ permutation : Equiv.Perm (Fin (order + 2)),
      ((permutation.sign : ℤ) : R) * ∏ row, matrix.entry row (permutation row)) ∧
    (∀ depth below, Descends matrix.table depth below →
      depth ≤ order ∧ IsSquare (order + 2 - depth) below ∧ (expansion? below).isSome = true) ∧
    (other.determinant = none ↔ m ≠ n ∨ m < 2) := by
  refine ⟨?_, ?_, determinant_eq_none_iff other⟩
  · rw [determinant_eq_det, ← Matrix.det_transpose, Matrix.det_apply']
    rfl
  · intro depth below descends
    obtain ⟨le, square⟩ := descends.isSquare (table_eq matrix ▸ tableOf_isSquare matrix.toMatrix)
    have orderEq : order + 2 - depth = order - depth + 2 := by omega
    exact ⟨le, square, IsSquare.isSome_expansion? (orderEq ▸ square)⟩

/-- The determinant of order three goes down to the four entries beside a column. -/
theorem determinant_eq_leibniz_minor : IsSquare 2 (minor [[4, -2, 5], [2, 8, (7 : ℤ)]] 1) := by
  let matrix : Mat ℤ 3 3 := ⟨#v[⟨#v[6, 1, 1]⟩, ⟨#v[4, -2, 5]⟩, ⟨#v[2, 8, 7]⟩]⟩
  have descends : Descends matrix.table 1 (minor [[4, -2, 5], [2, 8, 7]] 1) :=
    .minor (.here : Descends matrix.table 0 ([6, 1, 1] :: [[4, -2, 5], [2, 8, 7]]))
      (by decide) (by decide)
  exact ((determinant_eq_leibniz matrix matrix).2.1 1 _ descends).2.1

/-- The determinant respects products, changes of rows into columns, multiples and the identity. -/
theorem determinant_respects_operations (left right : Mat R (order + 2) (order + 2)) (factor : R) :
    ∃ leftValue rightValue, left.determinant = some leftValue ∧
      right.determinant = some rightValue ∧
      (left.times right).determinant = some (leftValue * rightValue) ∧
      left.transpose.determinant = some leftValue ∧
      (left.scale factor).determinant = some (factor ^ (order + 2) * leftValue) ∧
      ∃ one : Mat R (order + 2) (order + 2), identity (order + 2) = .ok one ∧
        one.determinant = some 1 := by
  refine ⟨_, _, determinant_eq_det left, determinant_eq_det right, ?_, ?_, ?_, ?_⟩
  · rw [determinant_eq_det, toMatrix_times, Matrix.det_mul]
  · rw [determinant_eq_det, toMatrix_transpose, Matrix.det_transpose]
  · rw [determinant_eq_det, toMatrix_scale, Matrix.det_smul, Fintype.card_fin]
  · obtain ⟨one, made, oneEq⟩ := exists_identity (R := R) (order + 1)
    refine ⟨one, made, ?_⟩
    rw [determinant_eq_det, oneEq, Matrix.det_one]

end Mat

end PuzzleKit
