import PuzzleKit.Parser.Recursion
import PuzzleKit.Proofs.Json.Token
import PuzzleKit.Proofs.Parser.Consumption

/-!
# Reading JSON

A reader for all of JSON, made of the parsers of this library. It takes every JSON text for the
value that the text stands for; being a function, it shows that no text stands for two values.
-/

set_option autoImplicit false

namespace PuzzleKit.Json

variable {α : Type}

namespace Reader

/-- Chooses a parser by the next character, which that parser reads again. -/
def dispatch (choose : Char → Parser α) : Parser α where
  run input :=
    match input.chars.head? with
    | none => none
    | some char => (choose char).run input
  run_suffix {input rest value} found := by
    split at found
    · cases found
    · exact (choose _).run_suffix found

/-- Any number of items with commas between them, in brackets. -/
def bracketed (opening closing : Char) (item : Parser α) : Parser (List α) :=
  ((Parser.character opening).seqRight (item.sepBy (Parser.character ','))).seqLeft
    (space.seqRight (Parser.character closing))

def member (value : Parser Data) : Parser (String × Data) :=
  ((padded string).seqLeft (Parser.character ':')).pair (padded value)

def value (itself : Parser Data) : Parser Data :=
  dispatch fun char =>
    if char = 'n' then (Parser.string "null").map fun _ => .null
    else if char = 't' then (Parser.string "true").map fun _ => .boolean true
    else if char = 'f' then (Parser.string "false").map fun _ => .boolean false
    else if char = '"' then string.map .string
    else if char = '[' then (bracketed '[' ']' (padded itself)).map .array
    else if char = '\x7b' then (bracketed '\x7b' '\x7d' (member itself)).map .object
    else if char = '-' ∨ char.isDigit then number.map .number
    else Parser.fail

end Reader

def read? (text : List Char) : Option Data :=
  ((Reader.padded (Parser.recursive Reader.value)).seqLeft Parser.endOfInput).parse
    (Input.ofChars text)

/-! ## What may follow -/

/-- What follows a value inside of brackets, or nothing at all. -/
def EndsText (rest : List Char) : Prop :=
  ∀ char ∈ rest.head?, char = ',' ∨ char = ']' ∨ char = '\x7d'

theorem EndsText.solid {rest : List Char} (ends : EndsText rest) : Solid rest := by
  intro char member
  rcases ends char member with rfl | rfl | rfl <;> decide

theorem EndsText.endsNumber {after rest : List Char} (spaces : IsSpace after)
    (ends : EndsText rest) : EndsNumber (after ++ rest) := by
  intro char member
  cases after with
  | nil => rcases ends char member with rfl | rfl | rfl <;> decide
  | cons first others =>
      cases member
      have isSpace := spaces char List.mem_cons_self
      simp only [Json.isSpace, Bool.or_eq_true, beq_iff_eq] at isSpace
      rcases isSpace with ((rfl | rfl) | rfl) | rfl <;> decide

theorem IsString.solid {text : List Char} {value : String} (written : IsString text value)
    (rest : List Char) : Solid (text ++ rest) := by
  intro char member
  cases written
  cases member
  rfl

theorem IsValue.solid {text : List Char} {value : Data} (written : IsValue text value)
    (rest : List Char) : Solid (text ++ rest) := by
  intro char member
  cases written with
  | number written =>
      obtain ⟨first, others, rfl, head⟩ := written.exists_head
      cases member
      rcases head with rfl | isDigit
      · rfl
      · exact not_isSpace_of_isDigit isDigit
  | string written => exact written.solid rest char member
  | _ =>
      cases member
      rfl

/-! ## Brackets -/

theorem run_bracketed (opening : Char) {closing : Char} {item : Parser α}
    {text space rest : List Char} {items : List α} (spaces : IsSpace space)
    (solid : isSpace closing = false)
    (listed : (item.sepBy (Parser.character ',')).run
      (Input.ofChars (text ++ (space ++ closing :: rest))) =
        some (items, Input.ofChars (space ++ closing :: rest))) :
    (Reader.bracketed opening closing item).run
      (Input.ofChars (opening :: (text ++ (space ++ closing :: rest)))) =
        some (items, Input.ofChars rest) := by
  have opened := Parser.run_character opening (text ++ (space ++ closing :: rest))
  have closed := Parser.run_character closing rest
  have solid_rest : Solid (closing :: rest) := by
    intro char member
    cases member
    exact solid
  exact Parser.run_seqLeft_eq_some_iff.mpr ⟨_, closing,
    Parser.run_seqRight_eq_some_iff.mpr ⟨opening, _, opened, listed⟩,
    Parser.run_seqRight_eq_some_iff.mpr ⟨(), _, run_space spaces solid_rest, closed⟩⟩

theorem run_bracketed_nil (opening : Char) {closing : Char} {item : Parser α}
    {space rest : List Char} (spaces : IsSpace space) (solid : isSpace closing = false)
    (refused : item.run (Input.ofChars (space ++ closing :: rest)) = none) :
    (Reader.bracketed opening closing item).run
      (Input.ofChars (opening :: (space ++ closing :: rest))) = some ([], Input.ofChars rest) := by
  have listed : (item.sepBy (Parser.character ',')).run
      (Input.ofChars ([] ++ (space ++ closing :: rest))) =
        some ([], Input.ofChars (space ++ closing :: rest)) :=
    Parser.run_sepBy_eq_some_iff.mpr (.inl ⟨refused, rfl, rfl⟩)
  exact run_bracketed opening spaces solid listed

theorem run_padded_of_eq_none {parser : Parser α} {before rest : List Char}
    (spaces : IsSpace before) (solid : Solid rest)
    (refused : parser.run (Input.ofChars rest) = none) :
    (Reader.padded parser).run (Input.ofChars (before ++ rest)) = none := by
  simp only [Reader.padded, Parser.seqLeft, Parser.seqRight, run_space spaces solid, refused]

/-! ## Values -/

/-- The parser reads every value whose text is shorter than the bound, and finds no value at the end
of an array. -/
structure ReadsBelow (bound : Nat) (parser : Parser Data) : Prop where
  reads : ∀ {text rest : List Char} {value : Data}, IsValue text value → text.length < bound →
    EndsNumber rest → parser.run (Input.ofChars (text ++ rest)) = some (value, Input.ofChars rest)
  refuses : ∀ rest, parser.run (Input.ofChars (']' :: rest)) = none

section Nested

variable {bound : Nat} {parser : Parser Data}

theorem ReadsBelow.text (reads : ReadsBelow bound parser) {text rest : List Char} {value : Data}
    (written : IsText text value) (short : text.length < bound) (ends : EndsText rest) :
    (Reader.padded parser).run (Input.ofChars (text ++ rest)) =
      some (value, Input.ofChars rest) := by
  cases written with
  | @padded before inner after _ spacesBefore written spacesAfter =>
      simp only [List.length_append] at short
      exact run_padded spacesBefore (written.solid (after ++ rest))
        (reads.reads written (by omega) (ends.endsNumber spacesAfter)) spacesAfter ends.solid

theorem endsText_comma (rest : List Char) : EndsText (',' :: rest) := by
  intro char member
  cases member
  exact .inl rfl

theorem ReadsBelow.elements (reads : ReadsBelow bound parser) :
    {text : List Char} → {items : List Data} → IsElements text items → text.length < bound →
    (rest : List Char) →
    ((Reader.padded parser).sepBy (Parser.character ',')).run
      (Input.ofChars (text ++ ']' :: rest)) = some (items, Input.ofChars (']' :: rest))
  | _, _, .last written, short, rest =>
      Parser.run_sepBy_of_last (reads.text written short (by simp [EndsText])) rfl
  | _, _, .more first others, short, rest => by
      simp only [List.length_append, List.length_cons] at short
      rw [List.append_assoc, List.cons_append]
      exact Parser.run_sepBy_of_more (Parser.satisfy_consumes _)
        (reads.text first (by omega) (endsText_comma _)) (Parser.run_character ',' _)
        (reads.elements others (by omega) rest) (by cases others <;> simp)

theorem ReadsBelow.member (reads : ReadsBelow bound parser) {nameText text rest : List Char}
    {name : String} {value : Data} (named : IsName nameText name) (written : IsText text value)
    (short : text.length < bound) (ends : EndsText rest) :
    (Reader.member parser).run (Input.ofChars (nameText ++ ':' :: (text ++ rest))) =
      some ((name, value), Input.ofChars rest) := by
  cases named with
  | @padded before inner after _ spacesBefore quoted spacesAfter =>
      have colon := Parser.run_character ':' (text ++ rest)
      have name_run := run_padded spacesBefore (quoted.solid (after ++ ':' :: (text ++ rest)))
        (quoted.run _) spacesAfter (by simp [Solid, isSpace])
      exact Parser.run_pair_eq_some_iff.mpr ⟨_,
        Parser.run_seqLeft_eq_some_iff.mpr ⟨_, ':', name_run, colon⟩,
        reads.text written short ends⟩

theorem ReadsBelow.members (reads : ReadsBelow bound parser) :
    {text : List Char} → {members : List (String × Data)} → IsMembers text members →
    text.length < bound → (rest : List Char) →
    ((Reader.member parser).sepBy (Parser.character ',')).run
      (Input.ofChars (text ++ '\x7d' :: rest)) = some (members, Input.ofChars ('\x7d' :: rest))
  | _, _, .last named written, short, rest => by
      simp only [List.length_append, List.length_cons] at short
      rw [List.append_assoc, List.cons_append]
      exact Parser.run_sepBy_of_last
        (reads.member named written (by omega) (by simp [EndsText])) rfl
  | _, _, .more named written others, short, rest => by
      simp only [List.length_append, List.length_cons] at short
      rw [List.append_assoc, List.cons_append, List.append_assoc, List.cons_append]
      exact Parser.run_sepBy_of_more (Parser.satisfy_consumes _)
        (reads.member named written (by omega) (endsText_comma _)) (Parser.run_character ',' _)
        (reads.members others (by omega) rest) (by cases others <;> simp)

theorem run_word (word : String) (data : Data) (rest : List Char) :
    ((Parser.string word).map fun _ => data).run (Input.ofChars (word.toList ++ rest)) =
      some (data, Input.ofChars rest) :=
  Parser.run_map_of_eq_some (Parser.run_string_eq_some_iff.mpr ⟨rfl, rfl⟩) fun _ => data

/-- The next character settles what a value is. -/
theorem run_value_number {char : Char} (head : char = '-' ∨ char.isDigit = true)
    (others : List Char) :
    (Reader.value parser).run (Input.ofChars (char :: others)) =
      (Reader.number.map .number).run (Input.ofChars (char :: others)) := by
  have different (other : Char) (no_minus : other ≠ '-') (no_digit : other.isDigit = false) :
      char ≠ other := by
    rintro rfl
    rcases head with rfl | isDigit
    · exact no_minus rfl
    · exact absurd isDigit (by simp [no_digit])
  simp only [Reader.value, Reader.dispatch, Input.chars_ofChars, List.head?_cons,
    different 'n' (by decide) rfl, different 't' (by decide) rfl, different 'f' (by decide) rfl,
    different '"' (by decide) rfl, different '[' (by decide) rfl, different '\x7b' (by decide) rfl,
    head, ↓reduceIte]

/-- A value is read if the values inside of it are. -/
theorem ReadsBelow.run_value (reads : ReadsBelow bound parser) {text rest : List Char}
    {value : Data} (written : IsValue text value) (short : text.length < bound + 1)
    (ends : EndsNumber rest) :
    (Reader.value parser).run (Input.ofChars (text ++ rest)) =
      some (value, Input.ofChars rest) := by
  cases written with
  | null => exact run_word "null" .null rest
  | true => exact run_word "true" (.boolean true) rest
  | false => exact run_word "false" (.boolean false) rest
  | number written =>
      have read := Parser.run_map_of_eq_some (written.run ends) Data.number
      obtain ⟨char, others, rfl, head⟩ := written.exists_head
      rw [List.cons_append] at read ⊢
      rw [run_value_number head]
      exact read
  | string written =>
      have read := Parser.run_map_of_eq_some (written.run rest) Data.string
      cases written with
      | quoted => exact read
  | @emptyArray space spaces =>
      rw [List.cons_append, List.append_assoc, List.singleton_append]
      have refused : (Reader.padded parser).run (Input.ofChars (space ++ ']' :: rest)) = none :=
        run_padded_of_eq_none spaces (by simp [Solid, isSpace]) (reads.refuses rest)
      exact Parser.run_map_of_eq_some (run_bracketed_nil '[' spaces rfl refused) Data.array
  | @array inner items elements =>
      simp only [List.length_cons, List.length_append] at short
      have listed := reads.elements elements (by omega) rest
      rw [List.cons_append, List.append_assoc, List.singleton_append]
      exact Parser.run_map_of_eq_some (run_bracketed '[' isSpace_nil rfl listed) Data.array
  | @emptyObject space spaces =>
      rw [List.cons_append, List.append_assoc, List.singleton_append]
      have noName : (Reader.padded Reader.string).run
          (Input.ofChars (space ++ '\x7d' :: rest)) = none :=
        run_padded_of_eq_none spaces (by simp [Solid, isSpace]) rfl
      have refused : (Reader.member parser).run
          (Input.ofChars (space ++ '\x7d' :: rest)) = none := by
        simp only [Reader.member, Parser.pair, Parser.seqLeft, noName]
      exact Parser.run_map_of_eq_some (run_bracketed_nil '\x7b' spaces rfl refused) Data.object
  | @object inner members written =>
      simp only [List.length_cons, List.length_append] at short
      have listed := reads.members written (by omega) rest
      rw [List.cons_append, List.append_assoc, List.singleton_append]
      exact Parser.run_map_of_eq_some (run_bracketed '\x7b' isSpace_nil rfl listed) Data.object

end Nested

theorem readsBelow_unfold (depth : Nat) :
    ReadsBelow depth (Parser.unfold Reader.value depth) := by
  induction depth with
  | zero => exact ⟨fun _ short => absurd short (Nat.not_lt_zero _), fun _ => rfl⟩
  | succ depth ih => exact ⟨ih.run_value, fun _ => rfl⟩

theorem IsValue.run {text rest : List Char} {value : Data} (written : IsValue text value)
    (ends : EndsNumber rest) :
    (Parser.recursive Reader.value).run (Input.ofChars (text ++ rest)) =
      some (value, Input.ofChars rest) := by
  have short : text.length < (Input.ofChars (text ++ rest)).length + 1 := by
    simp only [Input.length_ofChars, List.length_append]
    omega
  exact (readsBelow_unfold _).reads written short ends

/-- The reader takes every JSON text for the value that it stands for. -/
theorem IsText.read? {text : List Char} {value : Data} (written : IsText text value) :
    read? text = some value := by
  cases written with
  | @padded before inner after _ spacesBefore written spacesAfter =>
      have ends : EndsText [] := by simp [EndsText]
      have read := run_padded spacesBefore (written.solid _)
        (written.run (ends.endsNumber spacesAfter)) spacesAfter ends.solid
      rw [List.append_nil] at read
      have complete := Parser.run_seqLeft_eq_some_iff.mpr ⟨_, (), read,
        Parser.run_endOfInput_eq_some_iff.mpr ⟨rfl, rfl⟩⟩
      simp only [Json.read?, Parser.parse, complete, Option.map_some]

/-- A JSON text stands for one value only. -/
theorem IsText.unique {text : List Char} {left right : Data} (leftWritten : IsText text left)
    (rightWritten : IsText text right) : left = right :=
  Option.some.inj (leftWritten.read?.symm.trans rightWritten.read?)

end PuzzleKit.Json
