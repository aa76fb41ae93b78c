import PuzzleKit.Linear.Scalar

/-!
# Vectors

A vector has a fixed number of components, its order. Two vectors can be combined only if they have
the same order.
-/

set_option autoImplicit false

namespace PuzzleKit

structure Vec (α : Type) (n : Nat) where
  components : Vector α n
deriving Repr

namespace Vec

variable {α : Type} {n : Nat}

def ofFn (component : Fin n → α) : Vec α n :=
  ⟨Vector.ofFn component⟩

def get (vector : Vec α n) (index : Fin n) : α :=
  vector.components[index]

def get? (vector : Vec α n) (index : Nat) : Option α :=
  vector.components[index]?

def order (_ : Vec α n) : Nat := n

@[ext]
theorem ext {left right : Vec α n} (getEq : ∀ index, left.get index = right.get index) :
    left = right := by
  obtain ⟨leftComponents⟩ := left
  obtain ⟨rightComponents⟩ := right
  congr 1
  exact Vector.ext fun index lt => getEq ⟨index, lt⟩

@[simp]
theorem get_ofFn (component : Fin n → α) (index : Fin n) :
    (ofFn component).get index = component index := by
  simp [get, ofFn]

instance [BEq α] : BEq (Vec α n) where
  beq left right := left.components == right.components

variable [Scalar α]

def plus (left right : Vec α n) : Vec α n :=
  ofFn fun index => left.get index + right.get index

def scale (vector : Vec α n) (factor : α) : Vec α n :=
  ofFn fun index => vector.get index * factor

def dot (left right : Vec α n) : α :=
  Scalar.sum (List.ofFn fun index => left.get index * right.get index)

@[simp]
theorem get_plus (left right : Vec α n) (index : Fin n) :
    (left.plus right).get index = left.get index + right.get index :=
  get_ofFn _ index

@[simp]
theorem get_scale (vector : Vec α n) (factor : α) (index : Fin n) :
    (vector.scale factor).get index = vector.get index * factor :=
  get_ofFn _ index

end Vec

end PuzzleKit
