import Mathlib.Computability.Language
import Mathlib.Tactic.MkIffOfInductiveProp
import PuzzleKit.Text.Grapheme

/-!
# Where a text may be cut

The Unicode rules for extended grapheme clusters, stated for the positions of a whole text. A rule
looks at the character behind the position and at all of the text before it, as far back as there is
text. What it asks of the text before is a regular language. The rules stand beside the reader of
graphemes and use nothing of it but the properties of characters.
-/

set_option autoImplicit false

namespace PuzzleKit.Text

open Computability

/-! ## The text before a position -/

/-- The texts of a single character with a property. -/
def one (holds : Char → Prop) : Language Char :=
  {text | ∃ char, holds char ∧ text = [char]}

def ofClass (classes : List BreakClass) : Language Char :=
  one fun char => breakClass char ∈ classes

def ofRole (roles : List ConjunctRole) : Language Char :=
  one fun char => conjunctRole char ∈ roles

/-- The texts that end with a character of one of the classes. -/
def endsWith (classes : List BreakClass) : Language Char :=
  ⊤ * ofClass classes

/-- The texts that end with a consonant and any marks that may stand between two consonants. -/
def afterConsonant : Language Char :=
  ⊤ * ofRole [.consonant] * (ofRole [.between, .linker])∗

/-- The same, with a linker among the marks. -/
def afterLinkedConsonant : Language Char :=
  afterConsonant * ofRole [.linker] * (ofRole [.between, .linker])∗

/-- The texts that end with a pictograph and any characters that extend it. -/
def afterPictograph : Language Char :=
  ⊤ * ofClass [.pictograph] * (ofClass [.extend])∗

def afterJoinedPictograph : Language Char :=
  afterPictograph * ofClass [.joiner]

/-- The empty text, and the texts that end with anything but a flag letter. -/
def afterNoFlag : Language Char :=
  1 + ⊤ * one fun char => breakClass char ≠ .flag

/-- The texts that end with pairs of flag letters, and with no other flag letter before these. -/
def afterFlagPairs : Language Char :=
  afterNoFlag * (ofClass [.flag] * ofClass [.flag])∗

def afterOddFlag : Language Char :=
  afterFlagPairs * ofClass [.flag]

/-! ## The rules -/

def controls : List BreakClass :=
  [.control, .carriageReturn, .lineFeed]

/-- The rules that keep a character in the grapheme before it, where neither side is a control:
GB6 to GB13, in this order. -/
@[mk_iff]
inductive Continues (before : List Char) (next : Char) : Prop where
  | afterLead :
      before ∈ endsWith [.hangulLead] →
      breakClass next ∈ [.hangulLead, .hangulVowel, .hangulOpen, .hangulClosed] →
      Continues before next
  | afterVowel :
      before ∈ endsWith [.hangulOpen, .hangulVowel] →
      breakClass next ∈ [.hangulVowel, .hangulTail] → Continues before next
  | afterTail :
      before ∈ endsWith [.hangulClosed, .hangulTail] → breakClass next = .hangulTail →
      Continues before next
  | extending : breakClass next ∈ [.extend, .joiner] → Continues before next
  | spacing : breakClass next = .spacingMark → Continues before next
  | prepended : before ∈ endsWith [.prepend] → Continues before next
  | conjunct :
      before ∈ afterLinkedConsonant → conjunctRole next = .consonant → Continues before next
  | pictograph :
      before ∈ afterJoinedPictograph → breakClass next = .pictograph → Continues before next
  | flag : before ∈ afterOddFlag → breakClass next = .flag → Continues before next

/-- The two characters at a position inside of a text belong together. A carriage return and a line
feed do (GB3), any other control stands alone (GB4, GB5), and then the other rules decide. -/
def Joined (before : List Char) (next : Char) : Prop :=
  before ∈ endsWith [.carriageReturn] ∧ breakClass next = .lineFeed ∨
    before ∉ endsWith controls ∧ breakClass next ∉ controls ∧ Continues before next

/-- A text may be cut at its start and at its end if there is any text (GB1, GB2), and otherwise
where no rule keeps the characters together (GB999). -/
def IsBoundary (before : List Char) : List Char → Prop
  | [] => before ≠ []
  | next :: _ => before = [] ∨ ¬ Joined before next

end PuzzleKit.Text
