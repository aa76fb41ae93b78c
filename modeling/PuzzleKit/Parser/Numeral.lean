import PuzzleKit.Number.Binary64
import PuzzleKit.Number.Decimal
import PuzzleKit.Parser.Character

/-!
# Reading numbers and truth values

A numeral is always read whole: its digits are the longest run there is, and if the number does not
fit, no shorter run is tried. Only the ASCII digits are digits.
-/

set_option autoImplicit false

namespace PuzzleKit.Parser

def digit : Parser UInt32 :=
  item.filterMap fun char =>
    if char.isDigit then some (UInt32.ofNat (Decimal.digitValue char)) else none

def digits : Parser (List Char) :=
  many1 (satisfy Char.isDigit)

/-- A natural number below `2 ^ 64`. -/
def natural : Parser UInt64 :=
  digits.filterMap fun digits =>
    let number := Decimal.value digits
    if number < UInt64.size then some (UInt64.ofNat number) else none

structure SignedNumeral where
  negative : Bool
  digits : List Char
deriving DecidableEq

/-- The number that signed digits write, of any size. -/
def SignedNumeral.value (signed : SignedNumeral) : Int :=
  if signed.negative then -(Decimal.value signed.digits : Int) else Decimal.value signed.digits

def SignedNumeral.toInt64? (signed : SignedNumeral) : Option Int64 :=
  if Int64.minValue.toInt ≤ signed.value ∧ signed.value ≤ Int64.maxValue.toInt then
    some (Int64.ofInt signed.value)
  else
    none

def signedNumeral : Parser SignedNumeral :=
  ((optional (character '-')).pair digits).map fun (sign, digits) => ⟨sign.isSome, digits⟩

def integer : Parser Int64 :=
  signedNumeral.filterMap SignedNumeral.toInt64?

/-- The double nearest to the number that signed digits and the digits after a point write. A minus
sign is kept also before a zero. -/
def nearestDouble (whole : SignedNumeral) (fraction : List Char) : Float :=
  Binary64.nearest whole.negative (Decimal.value (whole.digits ++ fraction))
    (Nat.pow 10 fraction.length)

/-- An integer of 64 bits and the digits after a point, if there are any. The number is read from
its whole text, however long its fraction is. A point that no digit follows is left unread. -/
def double : Parser Float :=
  (signedNumeral.pair (optional ((character '.').seqRight digits))).filterMap
    fun (whole, fraction) =>
      match whole.toInt64? with
      | none => none
      | some _ => some (nearestDouble whole (fraction.getD []))

def boolean : Parser Bool :=
  ((string "true").map fun _ => true).orElse ((string "false").map fun _ => false)

end PuzzleKit.Parser
