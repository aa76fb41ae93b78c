import PuzzleKit.Proofs.Number.Whole
import PuzzleKit.Proofs.Parser.Integer
import PuzzleKit.Proofs.Parser.WrittenLines
import PuzzleKit.Sensor

/-!
# Surveys that are read back

A survey of whole positions is read back as it was written: all of its sensors, in order, with every
coordinate converted to the nearest double. Converting is exact as long as coordinates are not too
large, and then the range of a sensor is the distance in steps, without any rounding.
-/

set_option autoImplicit false

namespace PuzzleKit.Sensor

open Binary64 (IsWhole toDyadic? Rounds)

/-- The whole positions of a sensor and of the beacon closest to it. -/
structure Reading where
  position : Int64 × Int64
  beacon : Int64 × Int64

namespace Reading

def pointForm (point : Int64 × Int64) : List Char :=
  "x=".toList ++ (Decimal.ofInt point.1.toInt ++ (", y=".toList ++ Decimal.ofInt point.2.toInt))

/-- The line of a survey, without its end. -/
def line (reading : Reading) : List Char :=
  "Sensor at ".toList ++ (pointForm reading.position ++
    (": closest beacon is at ".toList ++ pointForm reading.beacon))

def sensor (reading : Reading) : Sensor where
  position := pointAt reading.position.1 reading.position.2
  beacon := pointAt reading.beacon.1 reading.beacon.2

/-- The distance in steps along the axes. -/
def distance (reading : Reading) : ℤ :=
  |reading.beacon.1.toInt - reading.position.1.toInt| +
    |reading.beacon.2.toInt - reading.position.2.toInt|

end Reading

/-! ## Reading -/

theorem run_string_append (word : String) (rest : List Char) :
    (Parser.string word).run (Input.ofChars (word.toList ++ rest)) =
      some (word, Input.ofChars rest) :=
  Parser.run_string_eq_some_iff.mpr ⟨rfl, rfl⟩

theorem run_point (position : Int64 × Int64) {rest : List Char}
    (stops : ∀ char ∈ rest.head?, char.isDigit = false) :
    point.run (Input.ofChars (Reading.pointForm position ++ rest)) =
      some (pointAt position.1 position.2, Input.ofChars rest) := by
  obtain ⟨x, y⟩ := position
  have comma : ∀ char ∈ (", y=".toList ++ (Decimal.ofInt y.toInt ++ rest)).head?,
      char.isDigit = false := by
    intro char member
    cases member
    rfl
  have xLabel := run_string_append "x="
    (Decimal.ofInt x.toInt ++ (", y=".toList ++ (Decimal.ofInt y.toInt ++ rest)))
  have xRead := Parser.run_pair_eq_some_iff.mpr ⟨_, xLabel, Parser.run_integer_ofInt x comma⟩
  have yLabel := run_string_append ", y=" (Decimal.ofInt y.toInt ++ rest)
  have bothLabels := Parser.run_pair_eq_some_iff.mpr ⟨_, xRead, yLabel⟩
  have yRead := Parser.run_pair_eq_some_iff.mpr
    ⟨_, bothLabels, Parser.run_integer_ofInt y stops⟩
  simp only [Reading.pointForm, List.append_assoc]
  exact Parser.run_map_of_eq_some yRead _

theorem readsBack_line : Parser.ReadsBack parser Reading.line Reading.sensor := by
  intro reading rest ends
  have lineEnd : ∀ char ∈ rest.head?, char.isDigit = false := by
    rcases ends with rfl | ⟨following, rfl⟩
    · intro char member
      cases member
    · intro char member
      cases member
      rfl
  have colon : ∀ char ∈ (": closest beacon is at ".toList ++
      (Reading.pointForm reading.beacon ++ rest)).head?, char.isDigit = false := by
    intro char member
    cases member
    rfl
  have sensorRead := Parser.run_seqRight_eq_some_iff.mpr
    ⟨_, _, run_string_append "Sensor at " _, run_point reading.position colon⟩
  have beaconRead := Parser.run_seqRight_eq_some_iff.mpr
    ⟨_, _, run_string_append ": closest beacon is at " _, run_point reading.beacon lineEnd⟩
  have both := Parser.run_pair_eq_some_iff.mpr ⟨_, sensorRead, beaconRead⟩
  unfold Reading.line
  simp only [List.append_assoc]
  exact Parser.run_map_of_eq_some both _

/-! ## Coordinates -/

/-- The double nearest to a whole coordinate, with its sign; a tie goes to the even neighbour. -/
def IsNearest (coordinate : Int64) (number : Float) : Prop :=
  ∃ dyadic, toDyadic? number = some dyadic ∧ dyadic.negative = decide (coordinate.toInt < 0) ∧
    Rounds coordinate.toInt dyadic

/-- A point whose coordinates are the nearest to whole ones. -/
def Converts (whole : Int64 × Int64) (point : Vec Float 2) : Prop :=
  List.Forall₂ IsNearest [whole.1, whole.2] point.components.toList

theorem isNearest_ofInt (coordinate : Int64) :
    IsNearest coordinate (Binary64.ofInt coordinate.toInt) := by
  apply Binary64.ofInt_rounds
  have lower := coordinate.le_toInt
  have upper := coordinate.toInt_lt
  omega

theorem converts_pointAt (whole : Int64 × Int64) : Converts whole (pointAt whole.1 whole.2) :=
  .cons (isNearest_ofInt whole.1) (.cons (isNearest_ofInt whole.2) .nil)

/-! ## The range -/

/-- Both coordinates are at most `2 ^ 51` in absolute value. -/
def IsSmall (whole : Int64 × Int64) : Prop :=
  |whole.1.toInt| ≤ 2 ^ 51 ∧ |whole.2.toInt| ≤ 2 ^ 51

instance (whole : Int64 × Int64) : Decidable (IsSmall whole) :=
  inferInstanceAs (Decidable (_ ∧ _))

/-- Turning a coordinate around and adding another one is taking the difference. -/
theorem isWhole_offset {beacon position : ℤ} (beaconSmall : |beacon| ≤ 2 ^ 51)
    (positionSmall : |position| ≤ 2 ^ 51) :
    IsWhole (Binary64.ofInt beacon + Binary64.ofInt position * -1.0) (beacon - position) ∧
      |beacon - position| ≤ 2 ^ 52 := by
  have differenceSmall : |beacon - position| ≤ 2 ^ 52 := by
    calc |beacon - position| ≤ |beacon| + |position| := abs_sub beacon position
      _ ≤ 2 ^ 52 := by omega
  have turned := (IsWhole.ofInt (positionSmall.trans (by decide))).mul .minusOne
    (by rw [mul_neg_one, abs_neg]; exact positionSmall.trans (by decide))
  have sum := (IsWhole.ofInt (beaconSmall.trans (by decide))).add turned
    (by rw [mul_neg_one, ← sub_eq_add_neg]; exact differenceSmall.trans (by decide))
  rw [mul_neg_one, ← sub_eq_add_neg] at sum
  exact ⟨sum, differenceSmall⟩

theorem isWhole_coverage {reading : Reading} (positionSmall : IsSmall reading.position)
    (beaconSmall : IsSmall reading.beacon) :
    IsWhole reading.sensor.coverage reading.distance := by
  obtain ⟨horizontal, horizontalLe⟩ := isWhole_offset beaconSmall.1 positionSmall.1
  obtain ⟨vertical, verticalLe⟩ := isWhole_offset beaconSmall.2 positionSmall.2
  have sum := horizontal.abs.add vertical.abs (by
    rw [abs_of_nonneg (add_nonneg (abs_nonneg _) (abs_nonneg _))]
    omega)
  simp only [coverage, Vec.get_plus, Vec.get_scale]
  exact sum

/-! ## Surveys -/

theorem line_ne_nil (reading : Reading) : reading.line ≠ [] :=
  List.append_ne_nil_of_left_ne_nil (by decide) _

/-- A survey is read to its end and gives back its sensors in order, whether there is a newline
behind the last line or not. Every coordinate is the double nearest to what was written, and the
range is the exact distance if no coordinate is above `2 ^ 51`. -/
theorem survey_reads_back (readings : List Reading) (finalNewline : Bool) :
    (Parser.lines parser).run
        (Input.ofChars (Parser.writeLines Reading.line finalNewline readings)) =
      some (readings.map Reading.sensor, Input.ofChars []) ∧
    ∀ reading ∈ readings,
      Converts reading.position reading.sensor.position ∧
      Converts reading.beacon reading.sensor.beacon ∧
      (IsSmall reading.position → IsSmall reading.beacon →
        ∃ dyadic, toDyadic? reading.sensor.coverage = some dyadic ∧
          dyadic.value = reading.distance) := by
  refine ⟨readsBack_line.run_lines line_ne_nil finalNewline readings, fun reading _ => ?_⟩
  refine ⟨converts_pointAt reading.position, converts_pointAt reading.beacon, ?_⟩
  intro positionSmall beaconSmall
  exact (isWhole_coverage positionSmall beaconSmall).exists_toDyadic?

/-- Two points that are as far apart as the bound allows, and the lowest of all integers. -/
theorem survey_reads_back_limits :
    let readings : List Reading :=
      [⟨(2251799813685248, -2251799813685248), (-2251799813685248, 2251799813685248)⟩,
        ⟨(-9223372036854775808, 9007199254740993), (0, -7)⟩]
    (Parser.lines parser).run (Input.ofString
        ("Sensor at x=2251799813685248, y=-2251799813685248: " ++
          "closest beacon is at x=-2251799813685248, y=2251799813685248\n" ++
          "Sensor at x=-9223372036854775808, y=9007199254740993: " ++
          "closest beacon is at x=0, y=-7")) =
      some (readings.map Reading.sensor, Input.ofString "") ∧
    ∃ first ∈ readings, IsSmall first.position ∧ IsSmall first.beacon ∧
      ∃ dyadic, toDyadic? first.sensor.coverage = some dyadic ∧ dyadic.value = 2 ^ 53 := by
  intro readings
  obtain ⟨read, each⟩ := survey_reads_back readings false
  refine ⟨?_, ⟨(2251799813685248, -2251799813685248), (-2251799813685248, 2251799813685248)⟩,
    List.mem_cons_self, by decide, by decide, ?_⟩
  · have textEq : ("Sensor at x=2251799813685248, y=-2251799813685248: " ++
        "closest beacon is at x=-2251799813685248, y=2251799813685248\n" ++
        "Sensor at x=-9223372036854775808, y=9007199254740993: " ++
        "closest beacon is at x=0, y=-7").toList =
        Parser.writeLines Reading.line false readings := by
      decide +kernel
    rw [Input.ofString, textEq]
    exact read
  · obtain ⟨_, _, exactRange⟩ := each _ List.mem_cons_self
    obtain ⟨dyadic, decoded, valueEq⟩ := exactRange (by decide) (by decide)
    refine ⟨dyadic, decoded, valueEq.trans ?_⟩
    have distanceEq : (⟨(2251799813685248, -2251799813685248),
        (-2251799813685248, 2251799813685248)⟩ : Reading).distance = 2 ^ 53 := by
      decide
    rw [distanceEq]
    norm_num

end PuzzleKit.Sensor
