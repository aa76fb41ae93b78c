import PuzzleKit.Text.Conjunct

/-!
# Extended grapheme clusters

What a reader takes for one character may be several: a letter and its accents, a Hangul syllable
written with its letters, two flag letters, several pictographs joined to one. Whether the text may
be cut before a character depends on that character and on what was read before it. What has to be
known of the text before is kept in a `BreakState`.
-/

set_option autoImplicit false

namespace PuzzleKit.Text

/-- Whether the text read so far ends with a pictograph, its extending characters included, and
whether a joiner follows these. -/
inductive PictographState where
  | absent
  | present
  | joined
deriving DecidableEq, Repr

/-- Whether the text read so far ends with a consonant and marks that belong to it, and whether one
of these marks is a linker. -/
inductive ConjunctState where
  | absent
  | present
  | linked
deriving DecidableEq, Repr

structure BreakState where
  last : BreakClass
  pictograph : PictographState
  oddFlags : Bool
  conjunct : ConjunctState
deriving DecidableEq, Repr

namespace BreakState

/-- Nothing was read yet. As after a control, the text may be cut here. -/
def initial : BreakState :=
  ⟨.control, .absent, false, .absent⟩

/-- A pictograph waits for a joiner through the characters that extend it. -/
def advancePictograph (state : PictographState) : BreakClass → PictographState
  | .pictograph => .present
  | .extend => if state = .present then .present else .absent
  | .joiner => if state = .present then .joined else .absent
  | _ => .absent

/-- A consonant waits for the next one through linkers and other marks, and remembers a linker. -/
def advanceConjunct (state : ConjunctState) : ConjunctRole → ConjunctState
  | .consonant => .present
  | .linker => if state = .absent then .absent else .linked
  | .between => state
  | .none => .absent

def advance (state : BreakState) (char : Char) : BreakState :=
  let charClass := breakClass char
  { last := charClass
    pictograph := advancePictograph state.pictograph charClass
    oddFlags := if charClass = .flag then !state.oddFlags else false
    conjunct := advanceConjunct state.conjunct (conjunctRole char) }

def continuesSyllable : BreakClass → BreakClass → Bool
  | .hangulLead, .hangulLead => true
  | .hangulLead, .hangulVowel => true
  | .hangulLead, .hangulOpen => true
  | .hangulLead, .hangulClosed => true
  | .hangulOpen, .hangulVowel => true
  | .hangulOpen, .hangulTail => true
  | .hangulVowel, .hangulVowel => true
  | .hangulVowel, .hangulTail => true
  | .hangulClosed, .hangulTail => true
  | .hangulTail, .hangulTail => true
  | _, _ => false

/-- A character before and after which the text is always cut, a carriage return before a line feed
apart. -/
def isControl : BreakClass → Bool
  | .carriageReturn => true
  | .lineFeed => true
  | .control => true
  | _ => false

def joins (state : BreakState) (char : Char) : Bool :=
  let next := breakClass char
  if state.last = .carriageReturn ∧ next = .lineFeed then true
  else if isControl state.last || isControl next then false
  else if continuesSyllable state.last next then true
  else if next = .extend ∨ next = .joiner ∨ next = .spacingMark then true
  else if state.last = .prepend then true
  else if next = .pictograph ∧ state.pictograph = .joined then true
  else if next = .flag ∧ state.oddFlags then true
  else conjunctRole char = .consonant ∧ state.conjunct = .linked

end BreakState

/-- How many of the characters still belong to the grapheme that ends in `state`. -/
def graphemeTail (state : BreakState) : List Char → Nat
  | [] => 0
  | char :: chars =>
      if state.joins char then graphemeTail (state.advance char) chars + 1 else 0

def graphemeLength : List Char → Nat
  | [] => 0
  | char :: chars => graphemeTail (BreakState.initial.advance char) chars + 1

end PuzzleKit.Text
