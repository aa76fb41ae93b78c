import PuzzleKit.Linear.Vec

/-!
# Matrices

A matrix is a fixed number of rows of a fixed number of components. Matrices are multiplied row by
column. A determinant is expanded along the first row; the expansion works on lists of rows and
takes every entry by its number, and where an entry is missing it has no result.
-/

set_option autoImplicit false

namespace PuzzleKit

structure Mat (α : Type) (m n : Nat) where
  rows : Vector (Vec α n) m
deriving Repr

inductive MatError where
  | emptyIdentity
deriving DecidableEq, Repr

def MatError.message : MatError → String
  | emptyIdentity => "an identity matrix needs an order of at least 1"

namespace Mat

variable {α : Type} {m n p : Nat}

def ofFn (entry : Fin m → Fin n → α) : Mat α m n :=
  ⟨Vector.ofFn fun row => Vec.ofFn (entry row)⟩

def row (matrix : Mat α m n) (index : Fin m) : Vec α n :=
  matrix.rows.get index

def entry (matrix : Mat α m n) (row : Fin m) (column : Fin n) : α :=
  (matrix.row row).get column

@[ext]
theorem ext {left right : Mat α m n}
    (entryEq : ∀ row column, left.entry row column = right.entry row column) : left = right := by
  obtain ⟨leftRows⟩ := left
  obtain ⟨rightRows⟩ := right
  congr 1
  exact Vector.ext fun index lt => Vec.ext fun column => entryEq ⟨index, lt⟩ column

@[simp]
theorem row_ofFn (entry : Fin m → Fin n → α) (index : Fin m) :
    (ofFn entry).row index = Vec.ofFn (entry index) := by
  change (Vector.ofFn fun row => Vec.ofFn (entry row))[index] = Vec.ofFn (entry index)
  simp

@[simp]
theorem entry_ofFn (entry : Fin m → Fin n → α) (row : Fin m) (column : Fin n) :
    (ofFn entry).entry row column = entry row column := by
  simp [Mat.entry]

def width (_ : Mat α m n) : Nat := n

def height (_ : Mat α m n) : Nat := m

def transpose (matrix : Mat α m n) : Mat α n m :=
  ofFn fun column row => matrix.entry row column

@[simp]
theorem entry_transpose (matrix : Mat α m n) (row : Fin n) (column : Fin m) :
    matrix.transpose.entry row column = matrix.entry column row :=
  entry_ofFn _ row column

def columns (matrix : Mat α m n) : Vector (Vec α m) n :=
  matrix.transpose.rows

/-- Row by row, with the equality of the scalars. -/
instance [BEq α] : BEq (Mat α m n) where
  beq left right := left.rows == right.rows

variable [Scalar α]

def plus (left right : Mat α m n) : Mat α m n :=
  ⟨Vector.ofFn fun row => (left.row row).plus (right.row row)⟩

def scale (matrix : Mat α m n) (factor : α) : Mat α m n :=
  ⟨matrix.rows.map fun row => row.scale factor⟩

def times (left : Mat α m n) (right : Mat α n p) : Mat α m p :=
  let columns := right.transpose
  ofFn fun row column => (left.row row).dot (columns.row column)

@[simp]
theorem entry_plus (left right : Mat α m n) (row : Fin m) (column : Fin n) :
    (left.plus right).entry row column = left.entry row column + right.entry row column := by
  change (Vector.ofFn fun row => (left.row row).plus (right.row row))[row].get column = _
  simp [Mat.entry]

@[simp]
theorem entry_scale (matrix : Mat α m n) (factor : α) (row : Fin m) (column : Fin n) :
    (matrix.scale factor).entry row column = matrix.entry row column * factor := by
  change (matrix.rows.map (Vec.scale · factor))[row].get column =
    (matrix.rows[row]).get column * factor
  simp

@[simp]
theorem entry_times (left : Mat α m n) (right : Mat α n p) (row : Fin m) (column : Fin p) :
    (left.times right).entry row column =
      Scalar.sum (List.ofFn fun inner => left.entry row inner * right.entry inner column) := by
  simp only [times, entry_ofFn, Vec.dot]
  congr 2
  funext inner
  rw [← entry_transpose right column inner]
  rfl

/-- Ones on the diagonal and zeros elsewhere, for an order of at least one. -/
def identity (n : Nat) : Except MatError (Mat α n n) :=
  if n = 0 then
    .error .emptyIdentity
  else
    .ok (ofFn fun row column => if row = column then Scalar.one else Scalar.zero)

end Mat

namespace Determinant

variable {α : Type}

/-- The rows below the first one, without one of the columns. -/
def minor (others : List (List α)) (without : Nat) : List (List α) :=
  others.map fun row => row.eraseIdx without

variable [Scalar α]

def sign (column : Nat) : α :=
  if column % 2 = 0 then Scalar.one else Scalar.minusOne

/-- Expansion along the first row, down to two rows. -/
def expansion? : List (List α) → Option α
  | [] => some (Scalar.sum [])
  | [top, bottom] => do
      return (← top[0]?) * (← bottom[1]?) - (← bottom[0]?) * (← top[1]?)
  | top :: others => do
      let terms ← (List.range (others.length + 1)).mapM fun column => do
        return sign column * (← top[column]?) * (← expansion? (minor others column))
      return Scalar.sum terms
termination_by rows => rows.length
decreasing_by simp [minor]

end Determinant

namespace Mat

variable {α : Type} {m n : Nat}

def table (matrix : Mat α m n) : List (List α) :=
  matrix.rows.toList.map fun row => row.components.toList

/-- The determinant of a square matrix of order two or more; other matrices have none. -/
def determinant [Scalar α] (matrix : Mat α m n) : Option α :=
  if m ≠ n ∨ m < 2 then none else Determinant.expansion? matrix.table

end Mat

namespace Vec

variable {α : Type} {n : Nat}

def asRow (vector : Vec α n) : Mat α 1 n :=
  ⟨#v[vector]⟩

def asColumn (vector : Vec α n) : Mat α n 1 :=
  ⟨vector.components.map fun component => ⟨#v[component]⟩⟩

end Vec

end PuzzleKit
