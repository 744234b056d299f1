import Termbook.Proofs.LeadingGap
import Termbook.Proofs.Places

/-! # Skipping

Two scanners, one for blanks and one for a comment, can take turns until neither of them finds
anything. Each passes blanks and whole comments only, so a turn does not change where the gap ends,
and a turn that finds nothing has come to that end. So the turns stop where the measure of the gap
leads in one pass. Between the start and that place stand blanks and whole comments, and nothing is
left to skip; no other place of the text is like that, since blanks and whole comments are measured
alike whatever follows them. -/

namespace Termbook

open Termbook.Parser
open Cursor (ofIndex)

variable {text rest passed : List Char} {c d : Cursor} {i k : Nat}

/-! ## The scanners -/

/-- Blanks may be skipped before any text. -/
theorem skipped_of_blanks (blanks : ∀ c ∈ passed, isBlank c = true) : Skipped rest passed := by
  induction passed with
  | nil => exact .nil
  | cons c passed ih =>
      obtain ⟨blank, blanks⟩ := List.forall_mem_cons.mp blanks
      exact .blank blank (ih blanks)

/-- Where neither scanner finds anything, nothing is left to skip. -/
theorem settled_of_lengths (noBlank : blankLength text = 0) (noComment : commentLength text = 0) :
    Settled text := by
  cases text with
  | nil => exact .inl rfl
  | cons c rest =>
      refine .inr ⟨?_, fun mark => ?_⟩
      · by_contra blank
        rw [Bool.not_eq_false] at blank
        simp [blankLength, blank] at noBlank
      · obtain ⟨body, _, -, -, length⟩ := exists_comment mark
        simp [noComment, commentMark] at length

namespace Cursor

/-- Blanks and whole comments do not change where the gap ends. -/
theorem skipGap_advance (split : c.rest = passed ++ rest) (skipped : Skipped rest passed) :
    (c.advance passed.length).skipGap = c.skipGap := by
  have left : (c.advance passed.length).rest = rest := by
    rw [rest_advance, split, List.drop_left]
  calc (c.advance passed.length).skipGap
      = c.advance (passed.length + gapLength rest) := by rw [skipGap, left, advance_advance]
    _ = c.skipGap := by rw [skipGap, split, skipped.gapLength_append]

/-- The scanner for blanks does not change where the gap ends. -/
theorem skipGap_advance_blankLength (c : Cursor) :
    (c.advance (blankLength c.rest)).skipGap = c.skipGap :=
  skipGap_advance List.takeWhile_append_dropWhile.symm
    (skipped_of_blanks fun _ member => List.mem_takeWhile_imp member)

/-- The scanner for a comment does not change where the gap ends. -/
theorem skipGap_advance_commentLength (c : Cursor) :
    (c.advance (commentLength c.rest)).skipGap = c.skipGap := by
  by_cases mark : commentMark <+: c.rest
  · obtain ⟨body, rest, split, ⟨oneLine, whole⟩, length⟩ := exists_comment mark
    have skipped : Skipped rest (commentMark ++ body ++ []) := .comment oneLine whole .nil
    rw [List.append_nil] at skipped
    rw [length, skipGap_advance split skipped]
  · have none : commentLength c.rest = 0 := by
      rw [commentLength, if_neg (by rwa [List.isPrefixOf_iff_prefix])]
    rw [none, advance_zero]

/-- The gap ends at once where nothing is left to skip. -/
theorem skipGap_eq_self (settled : Settled c.rest) : c.skipGap = c := by
  rw [skipGap, settled.gapLength_eq_zero, advance_zero]

end Cursor

/-! ## Taking turns -/

namespace Parser

/-- One turn of both scanners; tell whether either of them has found anything. -/
def skipTurn : Parser Bool := do
  let blanks ← skipBlanks
  let comment ← skipComment
  return blanks || comment

/-- Let the scanners take turns until neither of them finds anything; tell whether anything has been
skipped, or had been `moved` before. -/
def skipTurns : (moved : Bool) → Parser Bool :=
  fix fun again moved => do
    if ← skipTurn then
      again true
    else
      return moved

/-- A turn goes forward and does not change where the gap ends. Where it finds nothing, nothing is
left to skip. -/
theorem skipTurn_apply (c : Cursor) :
    ∃ d, skipTurn c = .done (d.remaining != c.remaining) d ∧
      (c.Onward d ∧ d.skipGap = c.skipGap) ∧ (d.remaining = c.remaining → Settled d.rest) := by
  let mid := c.advance (blankLength c.rest)
  let d := mid.advance (commentLength mid.rest)
  have blanks : c.Onward mid := c.onward_advance _
  have comment : mid.Onward d := mid.onward_advance _
  refine ⟨d, ?_, ⟨blanks.trans comment, ?_⟩, fun still => ?_⟩
  · have moved : (mid.remaining != c.remaining || d.remaining != mid.remaining) =
        (d.remaining != c.remaining) := by
      have := blanks.remaining_le
      have := comment.remaining_le
      rw [Bool.eq_iff_iff]
      simp only [Bool.or_eq_true, bne_iff_ne]
      omega
    rw [← moved]
    rfl
  · rw [mid.skipGap_advance_commentLength, c.skipGap_advance_blankLength]
  · by_cases atEnd : d.rest = []
    · exact .inl atEnd
    · -- something is left, so neither scanner has taken anything
      have left : 0 < d.remaining := d.remaining_eq ▸ List.length_pos_iff.mpr atEnd
      have lengths : d.remaining = c.remaining - blankLength c.rest - commentLength mid.rest := rfl
      have noBlank : blankLength c.rest = 0 := by omega
      have noComment : commentLength mid.rest = 0 := by omega
      have same : mid = c := (congrArg c.advance noBlank).trans c.advance_zero
      have same' : d = mid := (congrArg mid.advance noComment).trans mid.advance_zero
      rw [same] at noComment
      rw [same', same]
      exact settled_of_lengths noBlank noComment

/-- The turns come to an end, which is where the gap ends. -/
theorem skipTurns_apply (moved : Bool) (c : Cursor) :
    skipTurns moved c = .done (moved || c.skipGap.remaining != c.remaining) c.skipGap := by
  induction size : c.remaining using Nat.strongRecOn generalizing c moved with
  | ind size ih =>
      subst size
      obtain ⟨d, turn, ⟨onward, sameEnd⟩, settled⟩ := skipTurn_apply c
      rw [skipTurns, fix_eq_below, bind_apply, turn, ← sameEnd]
      by_cases still : d.remaining = c.remaining
      · -- neither scanner has found anything, so this turn is the last one
        rw [Cursor.skipGap_eq_self (settled still), still, bne_self_eq_false, Bool.or_false]
        rfl
      · -- less is left, so the turns after this one end by induction
        have less : d.remaining < c.remaining := Nat.lt_of_le_of_ne onward.remaining_le still
        have turns := ih d.remaining less true d rfl
        have further : d.skipGap.remaining ≠ c.remaining :=
          Nat.ne_of_lt (Nat.lt_of_le_of_lt d.remaining_skipGap_le less)
        rw [bne_iff_ne.mpr still, bne_iff_ne.mpr further, Bool.or_true]
        exact (congrArg (Reply.after []) (below_apply less)).trans turns

/-- Measuring the gap in one pass skips what the scanners skip in turns. -/
theorem skip_eq_skipTurns : skip = skipTurns false := by
  funext c
  rw [skip, skipTurns_apply, Bool.false_or]

end Parser

/-! ## Indices -/

/-- The gap at one index reaches up to another one. -/
structure GapSpans (text : List Char) (i k : Nat) : Prop where
  /-- Blanks and whole comments stand between the indices. -/
  skipped : Skipped (text.drop k) ((text.take k).drop i)
  /-- At the second index the text is at its end, or it is significant. -/
  settled : text.length ≤ k ∨ Significant (text.drop k)

/-- Nothing is left to skip at the end of a text and where it is significant. -/
theorem settled_drop_iff :
    Settled (text.drop k) ↔ text.length ≤ k ∨ Significant (text.drop k) := by
  rw [Settled, List.drop_eq_nil_iff]

/-- A gap inside the text is as long as it is measured. -/
theorem GapSpans.eq_add_gapLength (spans : GapSpans text i k) (onward : i ≤ k)
    (within : k ≤ text.length) : k = i + gapLength (text.drop i) := by
  have split : text.drop i = (text.take k).drop i ++ text.drop k := by
    rw [← List.drop_append_of_le_length (by rw [List.length_take]; omega), List.take_append_drop]
  have measured := spans.skipped.gapLength_append
  rw [← split, (settled_drop_iff.mpr spans.settled).gapLength_eq_zero, List.length_drop,
    List.length_take] at measured
  omega

/-- The gap at an index reaches up to where it has been passed over. -/
theorem gapSpans_of_skipGap (stop : (ofIndex text i).skipGap = ofIndex text k) (onward : i ≤ k)
    (within : k ≤ max i text.length) : GapSpans text i k := by
  have left : dropGap (text.drop i) = text.drop k := congrArg Cursor.rest stop
  obtain ⟨passed, split, skipped, settled⟩ := exists_skipped_dropGap (text.drop i)
  rw [left] at split skipped settled
  -- beyond the end both lengths are zero
  have length : passed.length = k - i := by
    have lengths := congrArg List.length split
    rw [List.length_append, List.length_drop, List.length_drop] at lengths
    omega
  refine ⟨?_, settled_drop_iff.mp settled⟩
  rw [List.drop_take, split, List.take_left' length]
  exact skipped

/-- Skipping passes the gap and nothing else. From any place of a text, also beyond its end, the
scanners that take turns come to an end, and the measure of the gap answers as they do. Where they
stop the gap has ended, and inside the text it ends nowhere else. They tell that something has been
skipped if they have moved, and nothing more is skipped from where they stop. -/
theorem whole_gap_skipped (text : List Char) (i : Nat) :
    ∃ k moved, (skip (ofIndex text i) = .done moved (ofIndex text k) ∧
        skipTurns false (ofIndex text i) = .done moved (ofIndex text k)) ∧
      (i ≤ k ∧ k ≤ max i text.length) ∧ GapSpans text i k ∧
      (∀ j, i ≤ j → j ≤ text.length → GapSpans text i j → j = k) ∧
      (moved = true ↔ k ≠ i) ∧
      skip (ofIndex text k) = .done false (ofIndex text k) := by
  obtain ⟨k, stop, onward, within⟩ := (ofIndex text i).onward_skipGap.exists_index
  have skipped : skip (ofIndex text i) =
      .done ((ofIndex text k).remaining != (ofIndex text i).remaining) (ofIndex text k) := by
    rw [skip, stop]
  have spans := gapSpans_of_skipGap stop onward within
  refine ⟨k, _, ⟨skipped, skip_eq_skipTurns ▸ skipped⟩, ⟨onward, within⟩, spans,
    fun j onward' within' spans' => ?_, ?_, ?_⟩
  · rw [spans'.eq_add_gapLength onward' within', spans.eq_add_gapLength onward (by omega)]
  · simp only [ofIndex, bne_iff_ne]
    omega
  · rw [skip, ← stop, Cursor.skipGap_skipGap, bne_self_eq_false]

/-- A blank is skipped, and a comment with the newline that it leaves, but not the single slash
after them. -/
theorem whole_gap_skipped_slash :
    (0 ≤ 5 ∧ 5 ≤ [' ', '/', '/', 'a', '\n', '/'].length ∧
        GapSpans [' ', '/', '/', 'a', '\n', '/'] 0 5) ∧
      skip (ofIndex [' ', '/', '/', 'a', '\n', '/'] 0) =
          .done true (ofIndex [' ', '/', '/', 'a', '\n', '/'] 5) ∧
        skip (ofIndex [' ', '/', '/', 'a', '\n', '/'] 5) =
          .done false (ofIndex [' ', '/', '/', 'a', '\n', '/'] 5) := by
  have comment : Skipped ['/'] (commentMark ++ ['a'] ++ ['\n']) :=
    .comment (by decide) (fun _ member => (Option.some.inj member).symm) (.blank rfl .nil)
  have spans : GapSpans [' ', '/', '/', 'a', '\n', '/'] 0 5 :=
    ⟨.blank rfl comment, .inr (significant_slash (by decide))⟩
  obtain ⟨k, moved, ⟨skipped, -⟩, -, -, only, moves, again⟩ :=
    whole_gap_skipped [' ', '/', '/', 'a', '\n', '/'] 0
  obtain rfl := only 5 (by decide) (by decide) spans
  obtain rfl := moves.mpr (by decide)
  exact ⟨⟨by decide, by decide, spans⟩, skipped, again⟩

end Termbook
