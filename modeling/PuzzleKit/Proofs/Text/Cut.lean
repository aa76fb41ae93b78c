import PuzzleKit.Text.Input

/-!
# Cutting a text

A text whose end is left unread is cut between two characters. Both parts can be found again from
the numbers of bytes alone: the rest is as long as the text only if it is the text, and the
difference of the two numbers is a position at which the text may be cut.
-/

set_option autoImplicit false

namespace PuzzleKit.Input

def byteLength (input : Input) : Nat :=
  input.toString.utf8ByteSize

/-- Where a text is cut, judged by the number of bytes that are left. -/
def offset (input rest : Input) : String.Pos.Raw :=
  ⟨input.byteLength - rest.byteLength⟩

/-- A text is cut into what was taken and the rest. -/
structure Cut (input : Input) (taken : List Char) (rest : Input) : Prop where
  chars_eq : input.chars = taken ++ rest.chars
  byteLength_le : rest.byteLength ≤ input.byteLength
  byteLength_eq_iff : rest.byteLength = input.byteLength ↔ taken = []
  offset_isValid : (offset input rest).IsValid input.toString
  slice_eq : ∀ valid, (input.toString.sliceTo ⟨offset input rest, valid⟩).copy = String.ofList taken

theorem toString_of_append {input rest : Input} {taken : List Char}
    (split : input.chars = taken ++ rest.chars) :
    input.toString = String.ofList taken ++ rest.toString := by
  rw [toString, split, String.ofList_append, toString]

theorem byteLength_of_append {input rest : Input} {taken : List Char}
    (split : input.chars = taken ++ rest.chars) :
    input.byteLength = (String.ofList taken).utf8ByteSize + rest.byteLength := by
  rw [byteLength, toString_of_append split, String.utf8ByteSize_append, byteLength]

/-- The bytes of the rest tell where the text was cut. -/
theorem offset_of_append {input rest : Input} {taken : List Char}
    (split : input.chars = taken ++ rest.chars) :
    offset input rest = (String.ofList taken).rawEndPos := by
  rw [offset, byteLength_of_append split, Nat.add_sub_cancel]
  rfl

theorem Cut.of_append {input rest : Input} {taken : List Char}
    (split : input.chars = taken ++ rest.chars) : Cut input taken rest where
  chars_eq := split
  byteLength_le := by
    rw [byteLength_of_append split]
    exact Nat.le_add_left _ _
  byteLength_eq_iff := by
    rw [byteLength_of_append split, Nat.right_eq_add, String.utf8ByteSize_eq_zero_iff]
    simp
  offset_isValid :=
    String.Pos.Raw.isValid_iff_exists_append.mpr
      ⟨_, _, toString_of_append split, offset_of_append split⟩
  slice_eq valid := by
    have splits :
        String.Pos.Splits ⟨offset input rest, valid⟩ (String.ofList taken) rest.toString :=
      ⟨toString_of_append split, offset_of_append split⟩
    exact splits.copy_sliceTo_eq

theorem byteLength_eq_iff_of_suffix {input rest : Input} (suffix : rest.chars <:+ input.chars) :
    rest.byteLength = input.byteLength ↔ rest.length = input.length := by
  obtain ⟨taken, split⟩ := suffix
  rw [(Cut.of_append split.symm).byteLength_eq_iff, rest.length_eq, input.length_eq, ← split,
    List.length_append, Nat.right_eq_add, List.length_eq_zero_iff]

end PuzzleKit.Input
