import PuzzleKit.Proofs.Parser.Consumption
import PuzzleKit.Proofs.Text.Segmentation

/-!
# Reading graphemes one after another

One step reads up to the first boundary of the text that is left, without any knowledge of the text
before. Step after step the text is still cut at all of its boundaries and nowhere else.
-/

set_option autoImplicit false

namespace PuzzleKit.Parser

open Text (IsFirstCluster Segments)

/-- The parser takes the text up to its first boundary, wherever there is text. -/
structure ReadsFirstCluster (step : Parser String) : Prop where
  run_nil : step.run (Input.ofChars []) = none
  run_cons : ∀ first others, ∃ cluster rest, first :: others = cluster ++ rest ∧
    IsFirstCluster cluster rest ∧
    step.run (Input.ofChars (first :: others)) = some (String.ofList cluster, Input.ofChars rest)

theorem grapheme_readsFirstCluster : ReadsFirstCluster grapheme where
  run_nil := rfl
  run_cons first others := by
    obtain ⟨cluster, rest, split, taken, isFirst⟩ := Text.exists_firstCluster first others
    rw [split] at taken ⊢
    have dropEq : (Input.ofChars (cluster ++ rest)).drop cluster.length = Input.ofChars rest :=
      Input.ext List.drop_left
    exact ⟨cluster, rest, rfl, isFirst, by
      simp [grapheme, ofRead, isFirst.filled, taken, dropEq]⟩

/-- Repeated steps cut a text at all of its boundaries, by induction on the length of the text. -/
theorem ReadsFirstCluster.exists_repeats {step : Parser String} (reads : ReadsFirstCluster step)
    (text : List Char) :
    ∃ clusters, Repeats step (Input.ofChars text) (clusters.map String.ofList)
      (Input.ofChars []) ∧ Segments text clusters := by
  generalize size : text.length = length
  induction length using Nat.strongRecOn generalizing text with
  | ind length ih =>
      cases text with
      | nil =>
          have ended : Repeats step (Input.ofChars []) [] (Input.ofChars []) := by
            apply Repeats.stop
            intro value rest found
            cases reads.run_nil.symm.trans found
          exact ⟨[], ended, Text.segments_nil⟩
      | cons first others =>
          obtain ⟨cluster, rest, split, isFirst, read⟩ := reads.run_cons first others
          rw [split] at size read ⊢
          have shorter : rest.length < (cluster ++ rest).length := by
            have := List.length_pos_iff.mpr isFirst.filled
            rw [List.length_append]
            omega
          obtain ⟨clusters, repeated, segments⟩ := ih rest.length (size ▸ shorter) rest rfl
          exact ⟨cluster :: clusters, .step read shorter repeated, isFirst.segments segments⟩

theorem ReadsFirstCluster.many_segments {step : Parser String} (reads : ReadsFirstCluster step)
    (text : List Char) :
    ∃ clusters, step.many.run (Input.ofChars text) =
        some (clusters.map String.ofList, Input.ofChars []) ∧
      (∀ cluster ∈ clusters, cluster ≠ []) ∧ clusters.flatten = text ∧
      ∀ before rest, before ++ rest = text →
        (Text.IsCut clusters before ↔ Text.IsBoundary before rest) := by
  obtain ⟨clusters, repeated, segments⟩ := reads.exists_repeats text
  exact ⟨clusters, run_many_eq_some_iff.mpr repeated, segments.filled, segments.flatten_eq,
    segments.isCut_iff⟩

/-- Whatever step takes the text that is left up to its first boundary, step after step a text is
read to its end, and the clusters, none of which is empty, are the text cut at the boundaries of the
whole text, at all of them and nowhere else. Reading one grapheme is such a step. -/
theorem many_grapheme_segments (text : List Char) :
    ReadsFirstCluster grapheme ∧
      ∀ step, ReadsFirstCluster step →
        ∃ clusters, step.many.run (Input.ofChars text) =
            some (clusters.map String.ofList, Input.ofChars []) ∧
          (∀ cluster ∈ clusters, cluster ≠ []) ∧ clusters.flatten = text ∧
          ∀ before rest, before ++ rest = text →
            (Text.IsCut clusters before ↔ Text.IsBoundary before rest) :=
  ⟨grapheme_readsFirstCluster, fun _ reads => reads.many_segments text⟩

/-- A flag and a letter with its accent behind a line end: the accent does not begin a cluster, and
the letter does. -/
theorem many_grapheme_segments_flag :
    ∃ clusters, grapheme.many.run (Input.ofString "\r\n🇩🇪e\u0301") =
        some (clusters.map String.ofList, Input.ofString "") ∧
      Text.IsCut clusters ['\r', '\n', '🇩', '🇪'] ∧
      ¬ Text.IsCut clusters ['\r', '\n', '🇩', '🇪', 'e'] := by
  obtain ⟨reads, segments⟩ := many_grapheme_segments ['\r', '\n', '🇩', '🇪', 'e', '\u0301']
  obtain ⟨clusters, read, _, _, isCutIff⟩ := segments grapheme reads
  refine ⟨clusters, read, (isCutIff _ ['e', '\u0301'] rfl).mpr ?_, fun cut => ?_⟩
  · decide +kernel
  · exact absurd ((isCutIff _ ['\u0301'] rfl).mp cut) (by decide +kernel)

end PuzzleKit.Parser
