import PuzzleKit.Number.Shortest

/-!
# Layout of decimals

A double is written with its shortest digits. Where the point stands, whether there is an exponent
and how that is written are matters of layout.
-/

set_option autoImplicit false

namespace PuzzleKit.Decimal

/-- How a decimal is laid out: the exponents of the leading digit for which it is written in
positional notation, whether a whole number keeps a point and a zero, and whether a positive
exponent has a plus sign. -/
structure Layout where
  positionalFrom : Int
  positionalTo : Int
  pointZero : Bool
  plusSign : Bool

namespace Layout

/-- The digits with the point after as many of them as `leading` says. -/
def positional (layout : Layout) (digits : List Char) (leading : Int) : List Char :=
  if leading < 0 then
    '0' :: '.' :: (List.replicate (-leading - 1).toNat '0' ++ digits)
  else
    let whole := leading.toNat + 1
    if digits.length ≤ whole then
      digits ++ List.replicate (whole - digits.length) '0' ++
        (if layout.pointZero then ['.', '0'] else [])
    else
      digits.take whole ++ '.' :: digits.drop whole

/-- One digit, the others after a point, and the exponent of the first. -/
def scientific (layout : Layout) (digits : List Char) (leading : Int) : List Char :=
  let significand :=
    match digits with
    | first :: second :: others => first :: '.' :: second :: others
    | few => few
  let sign := if layout.plusSign ∧ 0 ≤ leading then ['+'] else []
  significand ++ 'e' :: (sign ++ ofInt leading)

def ofScaled (layout : Layout) (number : Scaled) : List Char :=
  let text := digits number.coefficient
  let leading := number.exponent + text.length - 1
  if layout.positionalFrom ≤ leading ∧ leading ≤ layout.positionalTo then
    layout.positional text leading
  else
    layout.scientific text leading

def ofMagnitude? (layout : Layout) (significand : Nat) (exponent : Int) : Option (List Char) :=
  if significand = 0 then
    some (layout.positional ['0'] 0)
  else
    (shortest? significand exponent).map layout.ofScaled

/-- The text of a finite double; a negative zero keeps its sign. The infinities and NaN have no
decimal text. -/
def ofFloat? (layout : Layout) (number : Float) : Option (List Char) :=
  match Binary64.toDyadic? number with
  | none => none
  | some dyadic =>
      (layout.ofMagnitude? dyadic.significand dyadic.exponent).map fun magnitude =>
        if dyadic.negative then '-' :: magnitude else magnitude

end Layout

end PuzzleKit.Decimal
