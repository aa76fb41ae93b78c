/-!
# JSON values

The values that the program writes: integers of any size, doubles, truth values, strings and
arrays of values.
-/

set_option autoImplicit false

namespace PuzzleKit

inductive Json where
  | boolean (value : Bool)
  | integer (value : Int)
  | double (value : Float)
  | string (value : String)
  | array (items : List Json)

end PuzzleKit
