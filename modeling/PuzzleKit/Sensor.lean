import PuzzleKit.Linear.Vec
import PuzzleKit.Number.Layout
import PuzzleKit.Parser.Numeral
import PuzzleKit.Text.Quoted

/-!
# Sensors and beacons

A survey lists sensors, each on a line with its own position and that of the beacon closest to it.
A sensor covers everything that is no farther away than its beacon, counted in steps along the two
axes.
-/

set_option autoImplicit false

namespace PuzzleKit

/-- A sensor and the beacon closest to it. -/
structure Sensor where
  position : Vec Float 2
  beacon : Vec Float 2
deriving Repr

namespace Sensor

/-- The distance to the beacon in steps along the axes. -/
def coverage (sensor : Sensor) : Float :=
  let offset := sensor.beacon.plus (sensor.position.scale (-1.0))
  (offset.get 0).abs + (offset.get 1).abs

def pointAt (x y : Int64) : Vec Float 2 :=
  ⟨#v[Binary64.ofInt x.toInt, Binary64.ofInt y.toInt]⟩

def point : Parser (Vec Float 2) :=
  ((((Parser.string "x=").pair Parser.integer).pair (Parser.string ", y=")).pair Parser.integer).map
    fun (((_, x), _), y) => pointAt x y

/-- The line of a sensor, without the end of the line. -/
def parser : Parser Sensor :=
  (((Parser.string "Sensor at ").seqRight point).pair
    ((Parser.string ": closest beacon is at ").seqRight point)).map
    fun (position, beacon) => ⟨position, beacon⟩

/-- Coordinates always show a point. -/
def coordinateLayout : Decimal.Layout where
  positionalFrom := -5
  positionalTo := 15
  pointZero := true
  plusSign := false

/-- A range is written in full, with a point only before a fraction. -/
def rangeLayout : Decimal.Layout where
  positionalFrom := -324
  positionalTo := 308
  pointZero := false
  plusSign := false

/-- The text of a double; doubles that are no numbers do not come out of a survey. -/
def number (layout : Decimal.Layout) (value : Float) : List Char :=
  (layout.ofFloat? value).getD ['N', 'a', 'N']

def pointText (point : Vec Float 2) : List Char :=
  '[' :: (number coordinateLayout (point.get 0) ++ ", ".toList ++
    number coordinateLayout (point.get 1) ++ [']'])

def report (sensor : Sensor) : List Char :=
  "sensor at ".toList ++ pointText sensor.position ++ " covers a range of ".toList ++
    number rangeLayout sensor.coverage

/-- What is said of the sensors of a survey, a line for each. A survey that is not read to its end
gives the text that was left over instead. -/
def reportAll (survey : String) : Except String String :=
  match (Parser.lines parser).run (Input.ofString survey) with
  | none => .error "input did not match\n"
  | some (sensors, rest) =>
      if rest.isEmpty then
        .ok (String.ofList (sensors.flatMap fun sensor => report sensor ++ ['\n']))
      else
        .error ("Unexpected input: " ++ String.ofList (Text.quoted rest.chars) ++ "\n")

def sampleSurvey : String :=
  "Sensor at x=2, y=18: closest beacon is at x=-2, y=15\n" ++
  "Sensor at x=9, y=16: closest beacon is at x=10, y=16\n" ++
  "Sensor at x=13, y=2: closest beacon is at x=15, y=3\n"

end Sensor

end PuzzleKit
