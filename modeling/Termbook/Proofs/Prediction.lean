import Termbook.Proofs.Acceptance

/-! # The form is predicted

The forms of terms are tried one after the other, each with an opening of its own, and some openings
look behind a bracket. Yet one look at the text after the gap is enough to name the form: a keyword
is seen whole, any other text is told by its first character, and a bracket by the first significant
character behind it. So reading a term runs one body at most, and what that body answers is final,
also where it answers a fault. -/

namespace Termbook

open Termbook.Parser
open Cursor (ofIndex)

namespace Form

/-! ## Predicting -/

/-- The form of a term in brackets, by what stands behind its first bracket. -/
def behindBracket (inner : List Char) : Form :=
  match (dropGap inner).head? with
  | some c => if c.isUpper then ctr else if c ∈ operatorChars then op2 else app
  | none => app

/-- The form of a term without a bracket and without a keyword, by its first character. -/
def ofFirst? (c : Char) : Option Form :=
  if c = 'λ' ∨ c = '@' then some lam
  else if c.isUpper then some ctr
  else if c.isDigit then some num
  else if c = '\'' then some chr
  else if isDelimiter c then some str
  else if c = '[' then some lst
  else if startsVar c then some var
  else none

/-- The form of the term at the front of a text. -/
def predict? : List Char → Option Form
  | [] => none
  | c :: inner =>
      if letMark <+: c :: inner then some letIn
      else if dupMark <+: c :: inner then some dup
      else if c = '(' then some (behindBracket inner)
      else ofFirst? c

/-! ## What is predicted is tried first -/

/-- A single character other than a bracket tells the form that accepts it first. -/
theorem at?_singleton_eq_ofFirst? {c : Char} (notBracket : c ≠ '(') : at? [c] = ofFirst? c := by
  have noLet : letMark.isPrefixOf [c] = false := by simp [letMark, List.isPrefixOf]
  have noDup : dupMark.isPrefixOf [c] = false := by simp [dupMark, List.isPrefixOf]
  have alone : dropBracket [c] = [c] := by simp [dropBracket, notBracket]
  have noBracket : headIs (· == '(') [c] = false := by simpa [headIs] using notBracket
  have first (test : Char → Bool) : headIs test [c] = test c := rfl
  simp only [at?, all, List.find?_cons, opens, noLet, noDup, alone, noBracket, first, ofFirst?]
  -- both sides ask the same questions in the same order
  simp only [Bool.false_and, List.find?_nil]
  grind

/-- A bracket tells, with the first significant character behind it, the form that accepts it
first. -/
theorem at?_bracket_eq_behindBracket (inner : List Char) :
    at? ('(' :: inner) = some (behindBracket inner) := by
  rw [at?_bracket, behindBracket]
  cases dropGap inner with
  | nil => rfl
  | cons c rest =>
      have first (test : Char → Bool) : headIs test (c :: rest) = test c := rfl
      simp only [first, List.head?_cons, List.contains_iff_mem]
      split
      · rfl
      · split <;> rfl

/-- The form that is predicted for a text is the first one whose opening accepts it. -/
theorem at?_eq_predict? (text : List Char) : at? text = predict? text := by
  cases text with
  | nil => rfl
  | cons c inner =>
      rw [predict?]
      by_cases isLet : letMark <+: c :: inner
      · have accepts : letIn.opens (c :: inner) = true := List.isPrefixOf_iff_prefix.mpr isLet
        rw [if_pos isLet, at?, all, List.find?_cons, accepts]
      by_cases isDup : dupMark <+: c :: inner
      · have refuses : letIn.opens (c :: inner) = false := by
          simpa [opens, Bool.eq_false_iff, List.isPrefixOf_iff_prefix] using isLet
        have accepts : dup.opens (c :: inner) = true := List.isPrefixOf_iff_prefix.mpr isDup
        rw [if_neg isLet, if_pos isDup, at?, all, List.find?_cons, refuses, List.find?_cons,
          accepts]
      rw [if_neg isLet, if_neg isDup]
      by_cases bracket : c = '('
      · rw [if_pos bracket, bracket, at?_bracket_eq_behindBracket]
      · rw [if_neg bracket, at?_cons bracket isLet isDup, at?_singleton_eq_ofFirst? bracket]

/-- The alternatives before the one that is predicted refuse, read nothing and note nothing. -/
theorem parser_eq_none_of_tried_before {term : Parser Term} {c : Cursor} {other : Form}
    (before : other ∈ all.takeWhile (some · != predict? (dropGap c.rest))) :
    other.parser term c = .done none c := by
  have refuses : other.opens (dropGap c.rest) = false := by
    rw [← at?_eq_predict?] at before
    cases here : at? (dropGap c.rest) with
    | none =>
        have := List.find?_eq_none.mp here other (List.takeWhile_subset _ before)
        simpa using this
    | some form =>
        have sameTest : (fun other => some other != some form) = (· != form) := by
          funext other
          rw [bne, bne, Option.some_beq_some]
        rw [here, sameTest] at before
        exact opens_eq_false_of_at? here before
  rw [parser_apply, refuses]
  rfl

end Form

/-! ## Reading by prediction -/

/-- From any place of a text, also beyond its end, reading a term is reading the body of the form
that is predicted after the gap, and where none is predicted a term is expected there. Of the forms
that are tried before it, each one refuses, reads nothing and notes nothing. -/
theorem term_eq_predicted (text : List Char) (i : Nat) :
    ∃ k, (∃ moved, skip (ofIndex text i) = .done moved (ofIndex text k)) ∧
      (term (ofIndex text i) =
        match Form.predict? (text.drop k) with
        | some form =>
            (form.body term (ofIndex text i)).after [.accepted form.label (ofIndex text i)]
        | none => .failed "Term" (ofIndex text k)) ∧
      ∀ other ∈ Form.all.takeWhile (some · != Form.predict? (text.drop k)),
        other.parser term (ofIndex text i) = .done none (ofIndex text i) := by
  obtain ⟨k, atGap⟩ : ∃ k, (ofIndex text i).skipGap = ofIndex text k :=
    ⟨_, Cursor.advance_ofIndex text i _⟩
  have left : dropGap (ofIndex text i).rest = text.drop k :=
    (Cursor.rest_skipGap _).symm.trans (congrArg Cursor.rest atGap)
  refine ⟨k, ⟨_, congrArg (Reply.done _) atGap⟩, ?_, fun other before => ?_⟩
  · have whole := term_eq_body (ofIndex text i)
    rw [Form.at?_eq_predict?, left, atGap] at whole
    exact whole
  · exact Form.parser_eq_none_of_tried_before (left ▸ before)

/-- Behind a bracket and a comment an operator stands, so an operation is predicted, and the
alternative for constructors, which looks there too, refuses. -/
theorem term_eq_predicted_op2 :
    Form.predict? ([' ', '(', '/', '/', '\n', '+'].drop 1) = some .op2 ∧
      term (ofIndex [' ', '(', '/', '/', '\n', '+'] 0) =
        (Form.op2.body term (ofIndex [' ', '(', '/', '/', '\n', '+'] 0)).after
          [.accepted "op2" (ofIndex [' ', '(', '/', '/', '\n', '+'] 0)] ∧
      Form.ctr ∈ Form.all.takeWhile
          (some · != Form.predict? ([' ', '(', '/', '/', '\n', '+'].drop 1)) ∧
        Form.ctr.parser term (ofIndex [' ', '(', '/', '/', '\n', '+'] 0) =
          .done none (ofIndex [' ', '(', '/', '/', '\n', '+'] 0) := by
  have op2 : Form.predict? ([' ', '(', '/', '/', '\n', '+'].drop 1) = some .op2 := by decide
  obtain ⟨k, ⟨moved, skipped⟩, read, refused⟩ :=
    term_eq_predicted [' ', '(', '/', '/', '\n', '+'] 0
  obtain rfl : k = 1 := by
    simp only [skip, Reply.done, Reply.mk.injEq, Outcome.done.injEq] at skipped
    have sameIndex := congrArg (Cursor.index · 6) skipped.2.2
    exact (sameIndex.trans (Cursor.index_ofIndex [' ', '(', '/', '/', '\n', '+'] k)).symm
  rw [op2] at read
  exact ⟨op2, read, by decide, refused .ctr (by decide)⟩

end Termbook
