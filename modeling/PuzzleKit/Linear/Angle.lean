import PuzzleKit.Linear.Vec

/-!
# Length and angle

The length of a vector of doubles, and the angle between two of them. The angle is taken from its
cosine; every step rounds.
-/

set_option autoImplicit false

namespace PuzzleKit.Vec

variable {n : Nat}

def norm (vector : Vec Float n) : Float :=
  (vector.dot vector).sqrt

def cosine (left right : Vec Float n) : Float :=
  left.dot right / (left.norm * right.norm)

/-- The angle that an arc cosine, in whatever unit, gives for two vectors. -/
def angleBy (arcCosine : Float → Float) (left right : Vec Float n) : Float :=
  arcCosine (left.cosine right)

/-- The angle between two vectors, in radians. -/
def angle (left right : Vec Float n) : Float :=
  left.angleBy Float.acos right

end PuzzleKit.Vec
