/-!
# Tables

A table is a list of rows that need not be equally long.
-/

set_option autoImplicit false

namespace PuzzleKit.Table

variable {α : Type}

/-- The cells of one column, from the rows that are long enough. -/
def column (rows : List (List α)) (index : Nat) : List α :=
  rows.filterMap fun row => row[index]?

/-- Swaps rows and columns. There are as many columns as the first row has cells: longer rows are
cut, and the cells that shorter rows lack are left out. -/
def transpose : List (List α) → List (List α)
  | [] => []
  | first :: rows => (List.range first.length).map (column (first :: rows))

def count (items : List α) (holds : α → Bool) : Nat :=
  (items.filter holds).length

end PuzzleKit.Table
