import PuzzleKit.Proofs.Linear.Transpose
import PuzzleKit.Proofs.Number.Neutral

/-!
# The identity matrix over doubles

Every entry of a product with the identity is a sum with a single term that is not multiplied by
zero. The sum starts from a zero and stays a zero until that term comes; then it is that term, and
the zeros that follow leave it as it is. Only the sign of a zero can get lost on the way.
-/

set_option autoImplicit false

namespace PuzzleKit

/-! ## Comparing entry by entry -/

section Comparison

variable {α : Type} [BEq α] {m n : Nat}

theorem Vec.beq_iff (left right : Vec α n) :
    (left == right) = true ↔ ∀ index, (left.get index == right.get index) = true := by
  change (left.components == right.components) = true ↔ _
  rw [Vector.beq_eq_decide, decide_eq_true_eq]
  exact ⟨fun same index => same index index.isLt, fun same index inside => same ⟨index, inside⟩⟩

theorem Mat.beq_iff (left right : Mat α m n) :
    (left == right) = true ↔
      ∀ row column, (left.entry row column == right.entry row column) = true := by
  change (left.rows == right.rows) = true ↔ _
  rw [Vector.beq_eq_decide, decide_eq_true_eq]
  simp only [Vec.beq_iff]
  exact ⟨fun same row => same row row.isLt, fun same row inside => same ⟨row, inside⟩⟩

end Comparison

/-! ## Sums with one term -/

namespace Scalar

open Binary64

theorem foldl_zeros {terms : List Float} (zeros : ∀ term ∈ terms, IsZero term) (total : Float) :
    EqUpToZeroSign (terms.foldl (fun total term => total + term) total) total := by
  induction terms generalizing total with
  | nil => exact .inl rfl
  | cons term terms ih =>
      obtain ⟨first, others⟩ := List.forall_mem_cons.mp zeros
      exact (ih others (total + term)).trans (eqUpToZeroSign_add_zero first total).1

/-- The total is a zero before the one term, and that term from there on. -/
theorem foldl_one_term {count : Nat} {term : Fin count → Float} {place : Fin count} {total : Float}
    (start : IsZero total) (zeros : ∀ index, index ≠ place → IsZero (term index)) :
    EqUpToZeroSign ((List.ofFn term).foldl (fun total term => total + term) total)
      (term place) := by
  induction count generalizing total with
  | zero => exact place.elim0
  | succ count ih =>
      rw [List.ofFn_succ, List.foldl_cons]
      cases place using Fin.cases with
      | zero =>
          have later : ∀ other ∈ List.ofFn fun index => term index.succ, IsZero other :=
            List.forall_mem_ofFn_iff.mpr fun index => zeros index.succ (Fin.succ_ne_zero index)
          exact (foldl_zeros later _).trans (eqUpToZeroSign_add_zero start (term 0)).2
      | succ place =>
          have first := zeros 0 (Fin.succ_ne_zero place).symm
          exact ih (isZero_add start first) fun index other =>
            zeros index.succ ((Fin.succ_injective count).ne other)

theorem sum_one_term {count : Nat} {term : Fin count → Float} (place : Fin count)
    (zeros : ∀ index, index ≠ place → IsZero (term index)) :
    EqUpToZeroSign (Scalar.sum (List.ofFn term)) (term place) :=
  foldl_one_term ⟨.negative, rfl⟩ zeros

/-- The one term is a negative zero, and its sign is lost. -/
example : (Scalar.sum [-0.0, 0.0]).toBits = (0.0 : Float).toBits := by decide

end Scalar

/-! ## Products with the identity -/

namespace Mat

open Binary64

structure IsIdentity {order : Nat} (one : Mat Float order order) : Prop where
  diagonal : ∀ index, one.entry index index = 1.0
  zeros : ∀ row column, row ≠ column → IsZero (one.entry row column)

theorem exists_isIdentity (order : Nat) :
    ∃ one : Mat Float (order + 1) (order + 1), identity (order + 1) = .ok one ∧ IsIdentity one := by
  refine ⟨_, rfl, ?_, ?_⟩
  · intro index
    rw [entry_ofFn, if_pos rfl]
    rfl
  · intro row column apart
    rw [entry_ofFn, if_neg apart]
    exact ⟨.positive, rfl⟩

section Entries

variable {m n : Nat} {matrix : Mat Float m n}

theorem IsIdentity.entry_times_right {one : Mat Float n n} (isIdentity : IsIdentity one)
    (finite : ∀ row column, (matrix.entry row column).isFinite = true)
    (row : Fin m) (column : Fin n) :
    EqUpToZeroSign ((matrix.times one).entry row column) (matrix.entry row column) := by
  rw [entry_times]
  have kept : matrix.entry row column * one.entry column column = matrix.entry row column := by
    rw [isIdentity.diagonal, float_mul_one]
  have zeros : ∀ inner, inner ≠ column →
      IsZero (matrix.entry row inner * one.entry inner column) :=
    fun inner apart => isZero_mul (finite row inner) (isIdentity.zeros inner column apart)
  have sum := Scalar.sum_one_term column zeros
  rwa [kept] at sum

theorem IsIdentity.transpose {order : Nat} {one : Mat Float order order}
    (isIdentity : IsIdentity one) : IsIdentity one.transpose where
  diagonal index := (entry_transpose one index index).trans (isIdentity.diagonal index)
  zeros row column apart := by
    rw [entry_transpose]
    exact isIdentity.zeros column row apart.symm

/-- A product with the identity on the left is one with the identity on the right turned over. -/
theorem IsIdentity.entry_times_left {one : Mat Float m m} (isIdentity : IsIdentity one)
    (finite : ∀ row column, (matrix.entry row column).isFinite = true)
    (row : Fin m) (column : Fin n) :
    EqUpToZeroSign ((one.times matrix).entry row column) (matrix.entry row column) := by
  have turnedFinite : ∀ column row, (matrix.transpose.entry column row).isFinite = true := by
    intro column row
    rw [entry_transpose]
    exact finite row column
  have turned := isIdentity.transpose.entry_times_right turnedFinite column row
  rwa [← transpose_times_of_mul_comm float_mul_comm, entry_transpose, entry_transpose] at turned

end Entries

/-- A matrix of finite doubles with at least one row and one column compares equal to its products
with the identities on both sides, although every entry of the products is a rounded sum. -/
theorem times_identity_beq {m n : Nat} (matrix : Mat Float (m + 1) (n + 1))
    (finite : ∀ row column, (matrix.entry row column).isFinite = true) :
    ∃ (right : Mat Float (n + 1) (n + 1)) (left : Mat Float (m + 1) (m + 1)),
      identity (n + 1) = .ok right ∧ identity (m + 1) = .ok left ∧
      (matrix.times right == matrix) = true ∧ (left.times matrix == matrix) = true := by
  obtain ⟨right, rightMade, onRight⟩ := exists_isIdentity n
  obtain ⟨left, leftMade, onLeft⟩ := exists_isIdentity m
  refine ⟨right, left, rightMade, leftMade, ?_, ?_⟩
  · rw [beq_iff]
    exact fun row column => (onRight.entry_times_right finite row column).beq (finite row column)
  · rw [beq_iff]
    exact fun row column => (onLeft.entry_times_left finite row column).beq (finite row column)

/-- Behind the first column a zero with the other sign is added to the negative zero. -/
theorem times_identity_beq_signed :
    let matrix : Mat Float 1 2 := ⟨#v[⟨#v[-0.0, 1.5]⟩]⟩
    (∀ row column, (matrix.entry row column).isFinite = true) ∧
    ∃ (right : Mat Float 2 2) (left : Mat Float 1 1), identity 2 = .ok right ∧
      identity 1 = .ok left ∧
      (matrix.times right == matrix) = true ∧ (left.times matrix == matrix) = true := by
  intro matrix
  have finite : ∀ row column, (matrix.entry row column).isFinite = true := by decide
  exact ⟨finite, times_identity_beq matrix finite⟩

end Mat

end PuzzleKit
