import Mathlib
import Termbook.Reading.Cursor

/-! # Gaps as a language

A gap is a sequence of blanks and comments in which each comment is ended by a newline. Measuring a
gap character by character finds this language: a gap is passed over whole whatever follows it, and
what has been passed over before a token is a gap. A comment that the end of the text cuts off is
passed over as well, but no token follows it. So what is passed over is told together with the text
that follows: blanks and whole comments, where a comment is whole if its line ends with it. -/

namespace Termbook

/-- The texts that may stand before a token: blanks, and comments each with the newline that ends
it. -/
inductive IsGap : List Char → Prop where
  /-- Nothing at all. -/
  | nil : IsGap []
  /-- A blank before a gap. -/
  | blank {c : Char} {gap : List Char} (isBlank : isBlank c = true) (rest : IsGap gap) :
      IsGap (c :: gap)
  /-- A comment and its newline before a gap. -/
  | comment {body gap : List Char} (oneLine : '\n' ∉ body) (rest : IsGap gap) :
      IsGap (commentMark ++ body ++ '\n' :: gap)

/-- A line ends at the front of a text, with a newline or with the text. -/
def EndsLine (text : List Char) : Prop :=
  ∀ c ∈ text.head?, c = '\n'

/-- `Skipped rest passed`: where `passed` stands before `rest`, it is a sequence of blanks and whole
comments. A comment is whole if it extends to just before the next newline, or to the end of the
text. -/
inductive Skipped (rest : List Char) : List Char → Prop where
  /-- Nothing at all. -/
  | nil : Skipped rest []
  /-- A blank before others. -/
  | blank {c : Char} {passed : List Char} (isBlank : isBlank c = true)
      (others : Skipped rest passed) : Skipped rest (c :: passed)
  /-- A comment before others. Its newline, if there is one, is the first of them. -/
  | comment {body passed : List Char} (oneLine : '\n' ∉ body) (whole : EndsLine (passed ++ rest))
      (others : Skipped rest passed) : Skipped rest (commentMark ++ body ++ passed)

/-- Whether a character begins no gap, whatever follows it: it is neither a blank nor a slash. -/
def isSolid (c : Char) : Bool :=
  !isBlank c && c != '/'

/-- A text that starts with neither a blank nor a comment. -/
def Significant : List Char → Prop
  | [] => False
  | c :: rest => isBlank c = false ∧ ¬ commentMark <+: c :: rest

/-- Nothing is left to skip: the text is at its end, or it is significant. -/
def Settled (text : List Char) : Prop :=
  text = [] ∨ Significant text

/-- What is left of a text after the gap at its front. -/
def dropGap (text : List Char) : List Char :=
  text.drop (gapLength text)

/-- `After text tail`: a gap stands at the front of `text`, and `tail` after it. -/
def After (text tail : List Char) : Prop :=
  ∃ gap, IsGap gap ∧ text = gap ++ tail

/-! ## Significant texts -/

/-- A solid character makes its text significant. -/
theorem significant_cons {c : Char} {rest : List Char} (solid : isSolid c = true) :
    Significant (c :: rest) := by
  obtain ⟨notBlank, notSlash⟩ : isBlank c = false ∧ c ≠ '/' := by simpa [isSolid] using solid
  refine ⟨notBlank, fun comment => notSlash ?_⟩
  exact (List.cons_prefix_cons.mp comment).1.symm

/-- A slash makes its text significant unless another one follows. -/
theorem significant_slash {rest : List Char} (single : rest.head? ≠ some '/') :
    Significant ('/' :: rest) := by
  refine ⟨rfl, fun comment => single ?_⟩
  obtain ⟨tail, rfl⟩ := (List.cons_prefix_cons.mp comment).2
  rfl

/-- No text is significant without a character. -/
theorem Significant.ne_nil {text : List Char} (significant : Significant text) : text ≠ [] := by
  rintro rfl
  exact significant

/-- No gap stands at the front of a significant text. -/
theorem Significant.gapLength_eq_zero {text : List Char} (significant : Significant text) :
    gapLength text = 0 := by
  cases text with
  | nil => exact significant.elim
  | cons c rest =>
      obtain ⟨notBlank, notComment⟩ := significant
      have noMark : commentMark.isPrefixOf (c :: rest) = false := by
        simpa [← List.isPrefixOf_iff_prefix] using notComment
      simp [gapLength, gapLengthFrom, notBlank, noMark]

/-- A significant text is left as it is. -/
theorem Significant.dropGap_eq {text : List Char} (significant : Significant text) :
    dropGap text = text := by
  rw [dropGap, significant.gapLength_eq_zero, List.drop_zero]

/-- Where nothing is left to skip, no gap is measured. -/
theorem Settled.gapLength_eq_zero {text : List Char} (settled : Settled text) :
    gapLength text = 0 := by
  rcases settled with rfl | significant
  · rfl
  · exact significant.gapLength_eq_zero

/-! ## Passing over gaps -/

/-- A comment is measured up to the end of its line, and what follows as a gap. -/
theorem gapLengthFrom_body {body rest : List Char} (oneLine : '\n' ∉ body)
    (whole : EndsLine rest) : gapLengthFrom true (body ++ rest) = body.length + gapLength rest := by
  induction body with
  | nil =>
      rw [List.nil_append, List.length_nil, Nat.zero_add]
      cases rest with
      | nil => rfl
      | cons c rest =>
          -- the newline is a blank as well as the end of the comment
          obtain rfl : c = '\n' := whole c rfl
          rfl
  | cons c body ih =>
      have inside : (c != '\n') = true := by simpa using (List.ne_of_not_mem_cons oneLine).symm
      rw [List.cons_append, gapLengthFrom, inside, ih (List.not_mem_of_not_mem_cons oneLine),
        List.length_cons]
      omega

/-- Blanks and whole comments are passed over, whatever follows them. -/
theorem Skipped.gapLength_append {passed rest : List Char} (skipped : Skipped rest passed) :
    gapLength (passed ++ rest) = passed.length + gapLength rest := by
  induction skipped with
  | nil => simp
  | @blank c passed isBlank _ ih =>
      rw [List.cons_append, gapLength, gapLengthFrom, if_pos isBlank, List.length_cons]
      rw [gapLength] at ih
      omega
  | @comment body passed oneLine whole _ ih =>
      have mark : commentMark.isPrefixOf ('/' :: '/' :: (body ++ (passed ++ rest))) = true := rfl
      have slash : ('/' != '\n') = true := rfl
      have shape : commentMark ++ body ++ passed ++ rest =
          '/' :: '/' :: (body ++ (passed ++ rest)) := by
        simp [commentMark]
      rw [shape, gapLength, gapLengthFrom, isBlank_slash, if_neg Bool.false_ne_true, if_pos mark,
        gapLengthFrom, slash, gapLengthFrom_body oneLine whole, ih]
      simp only [commentMark, List.length_append, List.length_cons, List.length_nil]
      omega

/-- The comments of a gap are whole, since it holds their newlines. -/
theorem IsGap.skipped {gap : List Char} (isGap : IsGap gap) (rest : List Char) :
    Skipped rest gap := by
  induction isGap with
  | nil => exact .nil
  | blank blank _ ih => exact .blank blank ih
  | comment oneLine _ ih =>
      refine .comment oneLine (fun c member => ?_) (.blank isBlank_newline ih)
      exact (Option.some.inj member).symm

/-- A gap is passed over whole, whatever follows it. -/
theorem IsGap.gapLength_append {gap : List Char} (isGap : IsGap gap) (text : List Char) :
    gapLength (gap ++ text) = gap.length + gapLength text :=
  (isGap.skipped text).gapLength_append

/-- What is left after a gap is left after any gap before it as well. -/
theorem IsGap.dropGap_append {gap : List Char} (isGap : IsGap gap) (text : List Char) :
    dropGap (gap ++ text) = dropGap text := by
  rw [dropGap, isGap.gapLength_append, List.drop_append]
  simp [dropGap]

/-- Where a comment starts, the measure of comments takes its mark and its body, which is the rest
of the line. -/
theorem exists_comment {text : List Char} (mark : commentMark <+: text) :
    ∃ body rest, text = commentMark ++ body ++ rest ∧ ('\n' ∉ body ∧ EndsLine rest) ∧
      commentLength text = (commentMark ++ body).length := by
  obtain ⟨line, rfl⟩ := mark
  refine ⟨line.takeWhile (· != '\n'), line.dropWhile (· != '\n'), ?_, ⟨fun newline => ?_, ?_⟩, rfl⟩
  · rw [List.append_assoc, List.takeWhile_append_dropWhile]
  · simpa using List.mem_takeWhile_imp newline
  · intro c member
    have stop := List.head?_dropWhile_not (· != '\n') line
    rw [Option.mem_def.mp member] at stop
    simpa using stop

/-- Every text starts with blanks and whole comments up to where nothing is left to skip. -/
theorem exists_skipped (text : List Char) :
    ∃ passed rest, text = passed ++ rest ∧ Skipped rest passed ∧ Settled rest := by
  induction length : text.length using Nat.strongRecOn generalizing text with
  | ind length ih =>
      subst length
      cases text with
      | nil => exact ⟨[], [], rfl, .nil, .inl rfl⟩
      | cons c tail =>
          by_cases blank : isBlank c = true
          · obtain ⟨passed, rest, rfl, skipped, settled⟩ := ih _ (Nat.lt_succ_self _) tail rfl
            exact ⟨c :: passed, rest, rfl, .blank blank skipped, settled⟩
          · by_cases mark : commentMark <+: c :: tail
            · -- the walk goes on behind the whole comment, which takes at least its mark
              obtain ⟨body, left, split, ⟨oneLine, whole⟩, -⟩ := exists_comment mark
              have shorter : left.length < (c :: tail).length := by
                rw [split, commentMark]
                simp only [List.length_append, List.length_cons]
                omega
              obtain ⟨passed, rest, rfl, skipped, settled⟩ := ih _ shorter left rfl
              have skipped := Skipped.comment oneLine whole skipped
              exact ⟨_, rest, by rw [split, List.append_assoc _ passed], skipped, settled⟩
            · exact ⟨[], c :: tail, rfl, .nil, .inr ⟨by simpa using blank, mark⟩⟩

/-- What is passed over is blanks and whole comments, and nothing is left to skip after it. -/
theorem exists_skipped_dropGap (text : List Char) :
    ∃ passed, text = passed ++ dropGap text ∧ Skipped (dropGap text) passed ∧
      Settled (dropGap text) := by
  obtain ⟨passed, rest, rfl, skipped, settled⟩ := exists_skipped text
  have left : dropGap (passed ++ rest) = rest := by
    rw [dropGap, skipped.gapLength_append, settled.gapLength_eq_zero, Nat.add_zero, List.drop_left]
  rw [left]
  exact ⟨passed, rfl, skipped, settled⟩

/-- Without the newline at its front a gap is still a gap. -/
theorem IsGap.of_newline {gap : List Char} (isGap : IsGap ('\n' :: gap)) : IsGap gap := by
  generalize shape : '\n' :: gap = whole at isGap
  cases isGap with
  | nil => contradiction
  | blank _ rest => exact (List.cons_eq_cons.mp shape).2 ▸ rest
  | comment _ _ => simp [commentMark] at shape

/-- Blanks and whole comments become a gap with a gap after them, which has to start with a newline
where a comment may be waiting for one. -/
theorem Skipped.isGap_append {passed rest gap : List Char} (skipped : Skipped rest passed)
    (isGap : IsGap gap) (closes : EndsLine rest → ∃ more, gap = '\n' :: more) :
    IsGap (passed ++ gap) := by
  induction skipped with
  | nil => exact isGap
  | blank blank _ ih => exact .blank blank ih
  | @comment body passed oneLine whole _ ih =>
      -- the newline of the comment begins what has been passed after it, or else the gap put there
      obtain ⟨more, shape⟩ : ∃ more, passed ++ gap = '\n' :: more := by
        cases passed with
        | nil => exact closes whole
        | cons c passed =>
            obtain rfl : c = '\n' := whole c rfl
            exact ⟨passed ++ gap, rfl⟩
      rw [shape] at ih
      rw [List.append_assoc, shape]
      exact .comment oneLine ih.of_newline

/-- Gaps one after the other are a gap. -/
theorem IsGap.append {gap inner : List Char} (isGap : IsGap gap) (innerGap : IsGap inner) :
    IsGap (gap ++ inner) := by
  induction isGap with
  | nil => exact innerGap
  | blank blank _ ih => exact .blank blank ih
  | comment oneLine _ ih =>
      rw [List.append_assoc, List.cons_append]
      exact .comment oneLine ih

/-- What is passed over before the rest of a text is a gap once a newline ends it. -/
theorem exists_gap_newline (text : List Char) :
    ∃ gap, text = gap ++ dropGap text ∧ IsGap (gap ++ ['\n']) := by
  obtain ⟨passed, split, skipped, -⟩ := exists_skipped_dropGap text
  exact ⟨passed, split, skipped.isGap_append (.blank isBlank_newline .nil) fun _ => ⟨[], rfl⟩⟩

/-- What is left after a gap is significant, unless nothing is. -/
theorem significant_dropGap {text : List Char} (left : dropGap text ≠ []) :
    Significant (dropGap text) := by
  obtain ⟨-, -, -, settled⟩ := exists_skipped_dropGap text
  exact settled.resolve_left left

/-! ## The text after a gap -/

/-- Nothing has to stand before a text. -/
theorem After.refl (text : List Char) : After text text :=
  ⟨[], .nil, rfl⟩

/-- A plain space is a gap. -/
theorem After.space (text : List Char) : After (' ' :: text) text :=
  ⟨[' '], .blank isBlank_space .nil, rfl⟩

/-- What follows a gap follows it after any gap before it as well. -/
theorem After.append_left {text tail gap : List Char} (isGap : IsGap gap)
    (after : After text tail) : After (gap ++ text) tail := by
  obtain ⟨inner, innerGap, rfl⟩ := after
  exact ⟨gap ++ inner, isGap.append innerGap, by rw [List.append_assoc]⟩

/-- A significant text ends no line. -/
theorem Significant.not_endsLine {text : List Char} (significant : Significant text) :
    ¬ EndsLine text := by
  intro ends
  cases text with
  | nil => exact significant
  | cons c rest =>
      obtain rfl : c = '\n' := ends c rfl
      exact Bool.false_ne_true significant.1.symm

/-- What is left of a text stands after a gap if it is significant. -/
theorem after_dropGap {text : List Char} (significant : Significant (dropGap text)) :
    After text (dropGap text) := by
  obtain ⟨passed, split, skipped, -⟩ := exists_skipped_dropGap text
  refine ⟨passed, ?_, split⟩
  -- no comment waits for a newline before a significant text, so nothing has to be put there
  rw [← List.append_nil passed]
  exact skipped.isGap_append .nil fun ends => absurd ends significant.not_endsLine

/-- A significant text stands after a gap if and only if it is what is left after the gap. -/
theorem after_iff_dropGap_eq {text tail : List Char} (significant : Significant tail) :
    After text tail ↔ dropGap text = tail := by
  constructor
  · rintro ⟨gap, isGap, rfl⟩
    rw [isGap.dropGap_append, significant.dropGap_eq]
  · rintro rfl
    exact after_dropGap significant

/-- After a gap stands one text only, if it is significant. -/
theorem After.unique {text tail tail' : List Char} (significant : Significant tail)
    (significant' : Significant tail') (after : After text tail) (after' : After text tail') :
    tail = tail' := by
  rw [after_iff_dropGap_eq significant] at after
  rw [after_iff_dropGap_eq significant'] at after'
  exact after.symm.trans after'

/-- A solid character after a gap begins what is left after the gap. -/
theorem dropGap_of_after {c : Char} (solid : isSolid c = true) {text rest : List Char}
    (after : After text (c :: rest)) : dropGap text = c :: rest :=
  (after_iff_dropGap_eq (significant_cons solid)).mp after

/-- After a gap stands one solid character only, and one text after it. -/
theorem After.cons_unique {c c' : Char} (solid : isSolid c = true) (solid' : isSolid c' = true)
    {text rest rest' : List Char} (after : After text (c :: rest))
    (after' : After text (c' :: rest')) : c = c' ∧ rest = rest' :=
  List.cons_eq_cons.mp (after.unique (significant_cons solid) (significant_cons solid') after')

/-- Where a solid character stands after a gap, no other one does. -/
theorem After.not_after_cons {c c' : Char} (solid : isSolid c = true) (solid' : isSolid c' = true)
    (other : c ≠ c') {text rest : List Char} (after : After text (c :: rest))
    (tail : List Char) : ¬ After text (c' :: tail) :=
  fun after' => other (after.cons_unique solid solid' after').1

/-- No gap is left after a gap. -/
@[simp] theorem dropGap_dropGap (text : List Char) : dropGap (dropGap text) = dropGap text := by
  by_cases left : dropGap text = []
  · rw [left]; rfl
  · exact (significant_dropGap left).dropGap_eq

end Termbook
