import PuzzleKit.Proofs.Parser.Numeral
import PuzzleKit.Rows.Shape

/-!
# The values of a row

The written forms of the values that a row can hold, stated without a parser. A reader of values
takes a written value as it stands wherever a gap or the end of the line follows, and never takes
anything else.
-/

set_option autoImplicit false

namespace PuzzleKit.Rows

open PuzzleKit.Parser (IsNumeral SignedNumeral)

variable {α : Type}

/-- An optional minus sign and digits, for a number of 64 bits. -/
def IsInteger (text : List Char) (number : Int64) : Prop :=
  ∃ signed : SignedNumeral, IsNumeral text signed ∧ signed.InRange ∧ number.toInt = signed.value

/-- An integer of 64 bits, alone or with a point and at least one digit behind it. -/
inductive IsDouble : List Char → Float → Prop where
  | whole {text : List Char} {whole : SignedNumeral} :
      IsNumeral text whole → whole.InRange → IsDouble text (Parser.nearestDouble whole [])
  | fraction {text fraction : List Char} {whole : SignedNumeral} :
      IsNumeral text whole → whole.InRange →
      fraction ≠ [] → (∀ char ∈ fraction, char.isDigit = true) →
      IsDouble (text ++ '.' :: fraction) (Parser.nearestDouble whole fraction)

inductive IsBoolean : List Char → Bool → Prop where
  | true : IsBoolean "true".toList true
  | false : IsBoolean "false".toList false

structure IsWord (text : List Char) (word : String) : Prop where
  ne_nil : text ≠ []
  solid : ∀ char ∈ text, Text.isWhiteSpace char = false ∧ char ≠ ','
  toList_eq : word.toList = text

/-- What may stand behind a value: nothing, a gap or the end of the line. -/
def Delimits (rest : List Char) : Prop :=
  ∀ char ∈ rest.head?, isGapChar char = true ∨ char = '\n'

/-- A parser that reads exactly the values of a written form. -/
structure TokenReader (token : Parser α) (IsToken : List Char → α → Prop) : Prop where
  ne_nil : ∀ {text value}, IsToken text value → text ≠ []
  solid : ∀ {text value}, IsToken text value →
    ∀ char ∈ text, isGapChar char = false ∧ char ≠ '\n'
  reads : ∀ {text rest value}, IsToken text value → Delimits rest →
    token.run (Input.ofChars (text ++ rest)) = some (value, Input.ofChars rest)
  sound : ∀ {input rest value}, token.run input = some (value, rest) →
    ∃ text, IsToken text value ∧ input.chars = text ++ rest.chars

theorem Delimits.stops {rest : List Char} (delimits : Delimits rest) {accepts : Char → Bool}
    (solid : ∀ char, accepts char = true → isGapChar char = false ∧ char ≠ '\n') :
    ∀ char ∈ rest.head?, accepts char = false := by
  intro char member
  rw [Bool.eq_false_iff]
  intro accepted
  obtain ⟨notGap, notNewline⟩ := solid char accepted
  rcases delimits char member with gap | newline
  · exact absurd gap (by simp [notGap])
  · exact notNewline newline

private theorem solid_of_ne {char : Char} (blank : char ≠ ' ') (tab : char ≠ '\t')
    (comma : char ≠ ',') (newline : char ≠ '\n') : isGapChar char = false ∧ char ≠ '\n' := by
  simp [isGapChar, isBlank, blank, tab, comma, newline]

private theorem solid_of_isDigit (char : Char) (isDigit : char.isDigit = true) :
    isGapChar char = false ∧ char ≠ '\n' := by
  apply solid_of_ne <;> rintro rfl <;> cases isDigit

private theorem solid_of_isNumeral {text : List Char} {signed : SignedNumeral}
    (numeral : IsNumeral text signed) (char : Char) (member : char ∈ text) :
    isGapChar char = false ∧ char ≠ '\n' := by
  rcases numeral.char member with rfl | isDigit
  · decide
  · exact solid_of_isDigit char isDigit

theorem integer_reads : TokenReader Parser.integer IsInteger where
  ne_nil := fun ⟨_, numeral, _⟩ => numeral.ne_nil
  solid := fun ⟨_, numeral, _⟩ => solid_of_isNumeral numeral
  reads {text rest number} integer delimits := by
    obtain ⟨signed, numeral, inRange, same⟩ := integer
    exact Parser.run_filterMap_eq_some_iff.mpr ⟨signed,
      numeral.run (delimits.stops solid_of_isDigit),
      SignedNumeral.toInt64?_eq_some_iff.mpr ⟨inRange, same⟩⟩
  sound {input rest number} found := by
    obtain ⟨signed, read, fits⟩ := Parser.run_filterMap_eq_some_iff.mp found
    obtain ⟨text, numeral, front⟩ := Parser.isNumeral_of_run read
    exact ⟨text, ⟨signed, numeral, SignedNumeral.toInt64?_eq_some_iff.mp fits⟩, front⟩

/-- Neither a gap nor the end of a line begins with a point, so a whole number ends there. -/
theorem double_reads : TokenReader Parser.double IsDouble where
  ne_nil double := by
    cases double with
    | whole numeral => exact numeral.ne_nil
    | fraction => simp
  solid double char member := by
    cases double with
    | whole numeral => exact solid_of_isNumeral numeral char member
    | fraction numeral _ _ isDigit =>
        rw [List.mem_append, List.mem_cons] at member
        rcases member with member | rfl | member
        · exact solid_of_isNumeral numeral char member
        · decide
        · exact solid_of_isDigit char (isDigit char member)
  reads {text rest value} double delimits := by
    rw [Parser.run_double_eq_some_iff]
    have stops := delimits.stops solid_of_isDigit
    cases double with
    | @whole _ whole numeral inRange =>
        have noPoint : (Parser.character '.').run (Input.ofChars rest) = none :=
          Parser.run_satisfy_eq_none (delimits.stops fun char point => by
            cases beq_iff_eq.mp point
            decide)
        exact ⟨whole, none, _, numeral.run stops,
          Parser.run_optional_of_eq_none (Parser.run_seqRight_of_eq_none noPoint), inRange, rfl⟩
    | @fraction text fraction whole numeral inRange filled isDigit =>
        have point := Parser.run_character '.' (fraction ++ rest)
        have read := Parser.run_many1_satisfy_append filled isDigit stops
        rw [List.append_assoc]
        refine ⟨whole, some fraction, _, numeral.run (by simp), ?_, inRange, rfl⟩
        exact Parser.run_optional_of_eq_some
          (Parser.run_seqRight_eq_some_iff.mpr ⟨'.', _, point, read⟩)
  sound {input rest value} found := by
    obtain ⟨whole, fraction, middle, first, second, inRange, rfl⟩ :=
      Parser.run_double_eq_some_iff.mp found
    obtain ⟨text, numeral, front⟩ := Parser.isNumeral_of_run first
    rcases Parser.run_optional_eq_some_iff.mp second with ⟨written, read, rfl⟩ | ⟨_, rfl, rfl⟩
    · obtain ⟨_, after, point, digits⟩ := Parser.run_seqRight_eq_some_iff.mp read
      obtain ⟨filled, isDigit, others⟩ := Parser.front_of_run_many1_satisfy digits
      refine ⟨text ++ '.' :: written, .fraction numeral inRange filled isDigit, ?_⟩
      rw [front, (Parser.run_character_eq_some_iff.mp point).1, others, List.append_assoc,
        List.cons_append]
    · exact ⟨text, .whole numeral inRange, front⟩

theorem run_boolean_eq_some_iff {input rest : Input} {value : Bool} :
    Parser.boolean.run input = some (value, rest) ↔
      ∃ text, IsBoolean text value ∧ input.chars = text ++ rest.chars := by
  simp only [Parser.boolean, Parser.run_orElse_eq_some_iff, Parser.run_map_eq_some_iff,
    Parser.run_string_eq_some_iff]
  constructor
  · intro either
    rcases either with ⟨_, ⟨_, front⟩, rfl⟩ | ⟨_, _, ⟨_, front⟩, rfl⟩
    · exact ⟨_, .true, front⟩
    · exact ⟨_, .false, front⟩
  · intro parts
    obtain ⟨text, boolean, front⟩ := parts
    cases boolean with
    | true => exact .inl ⟨"true", ⟨rfl, front⟩, rfl⟩
    | false =>
        refine .inr ⟨?_, "false", ⟨rfl, front⟩, rfl⟩
        cases ran : (Parser.string "true").run input with
        | none => simp only [Parser.map, ran]
        | some outcome =>
            have other := (Parser.run_string_eq_some_iff.mp ran).2
            cases other.symm.trans front

theorem boolean_reads : TokenReader Parser.boolean IsBoolean where
  ne_nil boolean := by cases boolean <;> simp
  solid boolean := by
    cases boolean <;> simp [isGapChar, isBlank]
  reads boolean _ := run_boolean_eq_some_iff.mpr ⟨_, boolean, rfl⟩
  sound := run_boolean_eq_some_iff.mp

private theorem solid_of_isWordChar (char : Char) (inWord : isWordChar char = true) :
    isGapChar char = false ∧ char ≠ '\n' := by
  apply solid_of_ne <;> rintro rfl <;> revert inWord <;> decide

private theorem isWordChar_iff (char : Char) :
    isWordChar char = true ↔ Text.isWhiteSpace char = false ∧ char ≠ ',' := by
  simp [isWordChar]

theorem word_reads : TokenReader word IsWord where
  ne_nil word := word.ne_nil
  solid word char member :=
    solid_of_isWordChar char ((isWordChar_iff char).mpr (word.solid char member))
  reads {text rest value} word delimits := by
    have read := Parser.run_many1_satisfy_append word.ne_nil
      (fun char member => (isWordChar_iff char).mpr (word.solid char member))
      (delimits.stops solid_of_isWordChar)
    refine Parser.run_map_eq_some_iff.mpr ⟨text, read, ?_⟩
    rw [← word.toList_eq, String.ofList_toList]
  sound {input rest value} found := by
    obtain ⟨text, read, rfl⟩ := Parser.run_map_eq_some_iff.mp found
    obtain ⟨filled, inWord, front⟩ := Parser.front_of_run_many1_satisfy read
    exact ⟨text, ⟨filled, fun char member => (isWordChar_iff char).mp (inWord char member),
      String.toList_ofList⟩, front⟩

end PuzzleKit.Rows
