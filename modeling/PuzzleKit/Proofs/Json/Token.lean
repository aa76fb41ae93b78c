import PuzzleKit.Proofs.Json.Grammar
import PuzzleKit.Proofs.Parser.Repeats

/-!
# Reading numbers and strings of JSON

Parsers for the white space, the numbers and the strings of JSON. Each takes a text of its form as
it stands, as long as what follows the text does not go on with it.
-/

set_option autoImplicit false

namespace PuzzleKit.Json

open PuzzleKit.Parser (IsNumeral SignedNumeral)

variable {α : Type}

namespace Reader

/-! ## White space -/

def space : Parser Unit :=
  (Parser.many (Parser.satisfy isSpace)).map fun _ => ()

def padded (parser : Parser α) : Parser α :=
  (space.seqRight parser).seqLeft space

def whole : Parser SignedNumeral :=
  Parser.signedNumeral.filterMap fun signed =>
    if signed.digits = ['0'] ∨ signed.digits.head? ≠ some '0' then some signed else none

def fraction : Parser (List Char) :=
  (Parser.optional ((Parser.character '.').seqRight Parser.digits)).map fun digits =>
    digits.getD []

def exponentMark : Parser Char :=
  Parser.satisfy fun char => char == 'e' || char == 'E'

def exponentSign : Parser Bool :=
  (Parser.optional (Parser.satisfy fun char => char == '+' || char == '-')).map fun sign =>
    sign == some '-'

def exponent : Parser Int :=
  (Parser.optional (exponentMark.seqRight (exponentSign.pair Parser.digits))).map fun written =>
    (written.map fun (negative, digits) => signedPower negative digits).getD 0

def number : Parser ℚ :=
  (whole.pair (fraction.pair exponent)).map fun (whole, fraction, exponent) =>
    numberValue whole fraction exponent

def codeUnit : Parser Nat :=
  Parser.ofRead fun chars => (codeUnit? (chars.take 4)).map fun unit => (unit, 4)

/-- The character of a code unit, or of the code unit and its partner. -/
def unicode : Parser Char :=
  codeUnit.bind fun unit =>
    if 0xd800 ≤ unit ∧ unit < 0xdc00 then
      ((Parser.string "\\u").seqRight codeUnit).filterMap fun partner =>
        if 0xdc00 ≤ partner ∧ partner < 0xe000 then
          some (Char.ofNat (0x10000 + (unit - 0xd800) * 0x400 + (partner - 0xdc00)))
        else
          none
    else if unit.isValidChar then Parser.succeed (Char.ofNat unit)
    else Parser.fail

def escape : Parser Char :=
  Parser.item.bind fun letter =>
    match shortEscapes.lookup letter with
    | some char => Parser.succeed char
    | none => if letter = 'u' then unicode else Parser.fail

def char : Parser Char :=
  Parser.item.bind fun char =>
    if char = '\\' then escape
    else if isPlain char then Parser.succeed char
    else Parser.fail

def string : Parser String :=
  (((Parser.character '"').seqRight (Parser.many char)).seqLeft (Parser.character '"')).map
    String.ofList

end Reader

/-! ## White space -/

/-- What follows does not begin with white space. -/
def Solid (rest : List Char) : Prop :=
  ∀ char ∈ rest.head?, isSpace char = false

theorem run_space {before rest : List Char} (spaces : IsSpace before) (solid : Solid rest) :
    Reader.space.run (Input.ofChars (before ++ rest)) = some ((), Input.ofChars rest) :=
  Parser.run_map_eq_some_iff.mpr ⟨before, Parser.run_many_satisfy_append spaces solid, rfl⟩

theorem run_padded {parser : Parser α} {before text after rest : List Char} {value : α}
    (spacesBefore : IsSpace before) (solid : Solid (text ++ (after ++ rest)))
    (read : parser.run (Input.ofChars (text ++ (after ++ rest))) =
      some (value, Input.ofChars (after ++ rest)))
    (spacesAfter : IsSpace after) (ends : Solid rest) :
    (Reader.padded parser).run (Input.ofChars (before ++ (text ++ after) ++ rest)) =
      some (value, Input.ofChars rest) := by
  have skipped := run_space spacesBefore solid
  rw [← List.append_assoc text, ← List.append_assoc before] at skipped
  exact Parser.run_seqLeft_eq_some_iff.mpr ⟨_, (),
    Parser.run_seqRight_eq_some_iff.mpr ⟨(), _, skipped, by simpa using read⟩,
    run_space spacesAfter ends⟩

/-! ## Numbers -/

theorem IsDigits.run {text rest : List Char} (written : IsDigits text)
    (ends : ∀ char ∈ rest.head?, char.isDigit = false) :
    Parser.digits.run (Input.ofChars (text ++ rest)) = some (text, Input.ofChars rest) :=
  Parser.run_many1_satisfy_append written.1 written.2 ends

theorem IsDigits.exists_head {text : List Char} (written : IsDigits text) :
    ∃ char others, text = char :: others ∧ char.isDigit = true := by
  obtain ⟨char, others, rfl⟩ := List.exists_cons_of_ne_nil written.1
  exact ⟨char, others, rfl, written.2 char List.mem_cons_self⟩

/-- What follows does not go on with a number. -/
def EndsNumber (rest : List Char) : Prop :=
  ∀ char ∈ rest.head?, char.isDigit = false ∧ char ≠ '.' ∧ char ≠ 'e' ∧ char ≠ 'E'

theorem IsFraction.run {text digits rest : List Char} (written : IsFraction text digits)
    (ends : ∀ char ∈ rest.head?, char.isDigit = false ∧ char ≠ '.') :
    Reader.fraction.run (Input.ofChars (text ++ rest)) = some (digits, Input.ofChars rest) := by
  rw [Reader.fraction, Parser.run_map_eq_some_iff]
  cases written with
  | absent =>
      have noPoint : (Parser.character '.').run (Input.ofChars rest) = none :=
        Parser.run_satisfy_eq_none fun char member => beq_eq_false_iff_ne.mpr (ends char member).2
      exact ⟨none, Parser.run_optional_of_eq_none (Parser.run_seqRight_of_eq_none noPoint), rfl⟩
  | present written =>
      have read := written.run fun char member => (ends char member).1
      exact ⟨some digits, Parser.run_optional_of_eq_some
        (Parser.run_seqRight_eq_some_iff.mpr
          ⟨'.', _, Parser.run_character '.' (digits ++ rest), read⟩), rfl⟩

theorem IsExponentSign.run {text digits rest : List Char} {negative : Bool}
    (written : IsExponentSign text negative) (isDigits : IsDigits digits) :
    Reader.exponentSign.run (Input.ofChars (text ++ (digits ++ rest))) =
      some (negative, Input.ofChars (digits ++ rest)) := by
  rw [Reader.exponentSign, Parser.run_map_eq_some_iff]
  cases written with
  | absent =>
      obtain ⟨char, others, rfl, isDigit⟩ := isDigits.exists_head
      have noSign : (char == '+' || char == '-') = false := by
        rw [Bool.or_eq_false_iff, beq_eq_false_iff_ne, beq_eq_false_iff_ne]
        constructor <;> rintro rfl <;> cases isDigit
      refine ⟨none, Parser.run_optional_of_eq_none (Parser.run_satisfy_eq_none ?_), rfl⟩
      intro other member
      cases member
      exact noSign
  | plus =>
      exact ⟨some '+', Parser.run_optional_of_eq_some
        (Parser.run_satisfy_eq_some_iff.mpr ⟨rfl, rfl⟩), rfl⟩
  | minus =>
      exact ⟨some '-', Parser.run_optional_of_eq_some
        (Parser.run_satisfy_eq_some_iff.mpr ⟨rfl, rfl⟩), rfl⟩

theorem IsExponent.run {text rest : List Char} {power : Int} (written : IsExponent text power)
    (ends : EndsNumber rest) :
    Reader.exponent.run (Input.ofChars (text ++ rest)) = some (power, Input.ofChars rest) := by
  rw [Reader.exponent, Parser.run_map_eq_some_iff]
  cases written with
  | absent =>
      have noMark : Reader.exponentMark.run (Input.ofChars rest) = none :=
        Parser.run_satisfy_eq_none fun char member => by simp [ends char member]
      exact ⟨none, Parser.run_optional_of_eq_none (Parser.run_seqRight_of_eq_none noMark), rfl⟩
  | @present mark sign digits negative isMark isSign isDigits =>
      rw [List.cons_append, List.append_assoc]
      have marked : Reader.exponentMark.run (Input.ofChars (mark :: (sign ++ (digits ++ rest)))) =
          some (mark, Input.ofChars (sign ++ (digits ++ rest))) :=
        Parser.run_satisfy_eq_some_iff.mpr ⟨rfl, by simpa using isMark⟩
      have read := isDigits.run fun char member => (ends char member).1
      exact ⟨some (negative, digits), Parser.run_optional_of_eq_some
        (Parser.run_seqRight_eq_some_iff.mpr ⟨mark, _, marked,
          Parser.run_pair_eq_some_iff.mpr ⟨_, isSign.run isDigits, read⟩⟩), rfl⟩

/-- An exponent begins with its mark, so neither a digit nor a point comes next. -/
theorem IsExponent.stops {text rest : List Char} {power : Int} (written : IsExponent text power)
    (ends : EndsNumber rest) :
    ∀ char ∈ (text ++ rest).head?, char.isDigit = false ∧ char ≠ '.' := by
  intro char member
  cases written with
  | absent => exact ⟨(ends char member).1, (ends char member).2.1⟩
  | present isMark =>
      cases member
      rcases isMark with rfl | rfl <;> decide

theorem IsFraction.stops {text digits rest : List Char} (written : IsFraction text digits)
    (ends : ∀ char ∈ rest.head?, char.isDigit = false) :
    ∀ char ∈ (text ++ rest).head?, char.isDigit = false := by
  intro char member
  cases written with
  | absent => exact ends char member
  | present =>
      cases member
      rfl

theorem IsNumber.run {text rest : List Char} {value : ℚ} (written : IsNumber text value)
    (ends : EndsNumber rest) :
    Reader.number.run (Input.ofChars (text ++ rest)) = some (value, Input.ofChars rest) := by
  cases written with
  | @written wholeText fractionText exponentText digits signed power numeral solid isFraction
      isExponent =>
      have exponentStops := isExponent.stops ends
      have wholeStops := isFraction.stops fun char member => (exponentStops char member).1
      have wholeRun : Reader.whole.run
          (Input.ofChars (wholeText ++ (fractionText ++ (exponentText ++ rest)))) =
            some (signed, Input.ofChars (fractionText ++ (exponentText ++ rest))) :=
        Parser.run_filterMap_eq_some_iff.mpr ⟨signed, numeral.run wholeStops, if_pos solid⟩
      rw [List.append_assoc, List.append_assoc, Reader.number, Parser.run_map_eq_some_iff]
      exact ⟨(signed, digits, power), Parser.run_pair_eq_some_iff.mpr ⟨_, wholeRun,
        Parser.run_pair_eq_some_iff.mpr ⟨_, isFraction.run exponentStops, isExponent.run ends⟩⟩,
        rfl⟩

theorem IsNumber.exists_head {text : List Char} {value : ℚ} (written : IsNumber text value) :
    ∃ char others, text = char :: others ∧ (char = '-' ∨ char.isDigit = true) := by
  cases written with
  | written numeral =>
      obtain ⟨char, others, rfl⟩ := List.exists_cons_of_ne_nil numeral.ne_nil
      exact ⟨char, _, rfl, numeral.char List.mem_cons_self⟩

/-! ## Strings -/

theorem run_codeUnit {digits : List Char} {unit : Nat} (written : codeUnit? digits = some unit)
    (rest : List Char) :
    Reader.codeUnit.run (Input.ofChars (digits ++ rest)) = some (unit, Input.ofChars rest) := by
  have four : digits.length = 4 := by
    unfold codeUnit? at written
    split at written
    · rfl
    · cases written
  have front : (digits ++ rest).take 4 = digits := List.take_left' four
  have after : (digits ++ rest).drop 4 = rest := List.drop_left' four
  simp only [Reader.codeUnit, Parser.ofRead, Input.chars_ofChars, front, written, Option.map_some,
    Option.some.injEq, Prod.mk.injEq, true_and]
  exact Input.ext after

theorem run_item_bind {next : Char → Parser α} (char : Char) (rest : List Char) :
    (Parser.item.bind next).run (Input.ofChars (char :: rest)) =
      (next char).run (Input.ofChars rest) :=
  rfl

theorem run_escape_code (rest : List Char) :
    Reader.char.run (Input.ofChars ('\\' :: 'u' :: rest)) =
      Reader.unicode.run (Input.ofChars rest) := by
  have noShort : shortEscapes.lookup 'u' = none := by decide
  simp only [Reader.char, Reader.escape, run_item_bind, ↓reduceIte, noShort]

/-- A character is no surrogate, so its code unit is not taken for the first half of another one. -/
theorem IsChar.run {text : List Char} {char : Char} (written : IsChar text char)
    (rest : List Char) :
    Reader.char.run (Input.ofChars (text ++ rest)) = some (char, Input.ofChars rest) := by
  cases written with
  | plain plain =>
      have noEscape : char ≠ '\\' := by
        rintro rfl
        cases plain
      simp only [Reader.char, List.cons_append, List.nil_append, run_item_bind, noEscape,
        ↓reduceIte, plain]
      rfl
  | short found =>
      simp only [Reader.char, Reader.escape, List.cons_append, List.nil_append, run_item_bind,
        ↓reduceIte, found]
      rfl
  | @code digits _ written =>
      have valid : char.toNat.isValidChar := char.valid
      have noSurrogate : ¬(0xd800 ≤ char.toNat ∧ char.toNat < 0xdc00) := by
        rw [Nat.isValidChar] at valid
        omega
      rw [List.cons_append, List.cons_append, run_escape_code, Reader.unicode,
        Parser.run_bind_eq_some_iff]
      refine ⟨char.toNat, _, run_codeUnit written rest, ?_⟩
      rw [if_neg noSurrogate, if_pos valid, Char.ofNat_toNat]
      rfl
  | @surrogates first second high low _ firstWritten highLt secondWritten lowLt charEq =>
      have firstRun := run_codeUnit firstWritten ('\\' :: 'u' :: (second ++ rest))
      have partnerRun : ((Parser.string "\\u").seqRight Reader.codeUnit).run
          (Input.ofChars ('\\' :: 'u' :: (second ++ rest))) =
            some (0xdc00 + low, Input.ofChars rest) :=
        Parser.run_seqRight_eq_some_iff.mpr ⟨"\\u", _,
          Parser.run_string_eq_some_iff.mpr ⟨rfl, rfl⟩, run_codeUnit secondWritten rest⟩
      have isPartner : 0xdc00 ≤ 0xdc00 + low ∧ 0xdc00 + low < 0xe000 := by omega
      rw [List.cons_append, List.cons_append, List.append_assoc, List.cons_append, List.cons_append,
        run_escape_code, Reader.unicode, Parser.run_bind_eq_some_iff]
      refine ⟨0xd800 + high, _, firstRun, ?_⟩
      rw [if_pos (by omega), Parser.run_filterMap_eq_some_iff]
      refine ⟨0xdc00 + low, partnerRun, ?_⟩
      rw [if_pos isPartner, Nat.add_sub_cancel_left, Nat.add_sub_cancel_left, ← charEq,
        Char.ofNat_toNat]

theorem IsChar.ne_nil {text : List Char} {char : Char} (written : IsChar text char) :
    text ≠ [] := by
  cases written <;> simp

/-- A quote that is not escaped ends a string. -/
theorem run_char_quote (rest : List Char) :
    Reader.char.run (Input.ofChars ('"' :: rest)) = none :=
  rfl

theorem IsChars.repeats {text chars : List Char} (written : IsChars text chars)
    (rest : List Char) :
    Parser.Repeats Reader.char (Input.ofChars (text ++ '"' :: rest)) chars
      (Input.ofChars ('"' :: rest)) := by
  induction written with
  | nil =>
      refine .stop fun char final found => ?_
      cases (run_char_quote rest).symm.trans found
  | @cons text others chars char first _ ih =>
      have read := first.run (others ++ '"' :: rest)
      rw [← List.append_assoc] at read
      refine .step read ?_ ih
      have filled := List.length_pos_iff.mpr first.ne_nil
      simp only [Input.length_ofChars, List.length_append]
      omega

theorem IsString.run {text : List Char} {value : String} (written : IsString text value)
    (rest : List Char) :
    Reader.string.run (Input.ofChars (text ++ rest)) = some (value, Input.ofChars rest) := by
  cases written with
  | @quoted inner _ chars =>
      rw [List.cons_append, List.append_assoc, List.singleton_append, Reader.string,
        Parser.run_map_eq_some_iff]
      have opening := Parser.run_character '"' (inner ++ '"' :: rest)
      have read := Parser.run_many_eq_some_iff.mpr (chars.repeats rest)
      exact ⟨value.toList, Parser.run_seqLeft_eq_some_iff.mpr ⟨_, '"',
        Parser.run_seqRight_eq_some_iff.mpr ⟨'"', _, opening, read⟩, Parser.run_character '"' rest⟩,
        String.ofList_toList⟩

end PuzzleKit.Json
