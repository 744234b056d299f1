import Termbook.Proofs.Gap
import Termbook.Proofs.Progress

/-! # Which form a text has

Every opening only looks at what stands after the gap, so the form of a term is a function of the
text there: the first form, in the order in which they are tried, whose opening accepts it. Reading
a term is reading the body of that one form. -/

namespace Termbook

namespace Cursor

/-- What is left after the gap here. -/
@[simp] theorem rest_skipGap (c : Cursor) : c.skipGap.rest = dropGap c.rest := rfl

end Cursor

namespace Form

open Termbook.Parser

/-- Whether the first character of a text passes a test; an empty text has none. -/
def headIs (test : Char → Bool) (text : List Char) : Bool :=
  text.head?.any test

/-- What stands after an opening bracket and a gap, or the text itself if there is no bracket. -/
def dropBracket : List Char → List Char
  | '(' :: inner => dropGap inner
  | text => text

/-- Whether the opening of a form accepts a text. -/
def opens : Form → List Char → Bool
  | letIn, text => letMark.isPrefixOf text
  | dup, text => dupMark.isPrefixOf text
  | lam, text => headIs (· == 'λ') text || headIs (· == '@') text
  | ctr, text => headIs Char.isUpper (dropBracket text)
  | op2, text => headIs (· == '(') text && headIs operatorChars.contains (dropBracket text)
  | app, text => headIs (· == '(') text
  | num, text => headIs Char.isDigit text
  | chr, text => headIs (· == '\'') text
  | str, text => headIs isDelimiter text
  | lst, text => headIs (· == '[') text
  | var, text => headIs startsVar text

/-- The form of the terms that a text may start with: the first one whose opening accepts it. -/
def at? (text : List Char) : Option Form :=
  all.find? (·.opens text)

/-! ## Openings -/

/-- A single character stands at the front of a text if and only if it is the first one. -/
theorem isPrefixOf_singleton (c : Char) (text : List Char) :
    [c].isPrefixOf text = headIs (· == c) text := by
  cases text with
  | nil => rfl
  | cons first rest => simp [headIs, List.isPrefixOf, BEq.comm]

/-- A test of the character after the gap is one of the text there, if the null character, which
stands for the end of the text, does not pass. -/
theorem nextChar_apply {test : Char → Bool} (null : test '\x00' = false) (c : Cursor) :
    ∃ char, nextChar c = .done char (c.skipGap.advance 1) ∧
      test char = headIs test (dropGap c.rest) := by
  refine ⟨_, rfl, ?_⟩
  rw [headIs, ← c.rest_skipGap]
  cases c.skipGap.rest with
  | nil => exact null
  | cons first rest => rfl

theorem charTest_apply {test : Char → Bool} (null : test '\x00' = false) (c : Cursor) :
    charTest test c = .done (headIs test (dropGap c.rest)) (c.skipGap.advance 1) := by
  obtain ⟨char, read, passes⟩ := nextChar_apply null c
  rw [charTest, map_apply, read, ← passes]
  rfl

theorem token_apply {pattern : List Char} (nonempty : pattern ≠ []) (c : Cursor) :
    token pattern c =
      if pattern.isPrefixOf (dropGap c.rest) then .done true (c.skipGap.advance pattern.length)
      else .done false c := by
  rw [token, c.skipGap.startsWith_eq nonempty, c.rest_skipGap]

/-- A bracket after the gap is read, and another gap may follow. -/
theorem token_bracket (c : Cursor) :
    ∃ opened d, token ['('] c = .done opened d ∧ opened = headIs (· == '(') (dropGap c.rest) ∧
      dropGap d.rest = dropBracket (dropGap c.rest) := by
  rw [token_apply (by decide), isPrefixOf_singleton]
  split
  · next bracket =>
      refine ⟨_, _, rfl, bracket.symm, ?_⟩
      rw [Cursor.rest_advance, Cursor.rest_skipGap]
      revert bracket
      cases dropGap c.rest with
      | nil => nofun
      | cons first inner =>
          intro bracket
          have : first = '(' := by simpa [headIs] using bracket
          subst this
          rfl
  · next bracket =>
      refine ⟨_, _, rfl, by simpa using bracket, ?_⟩
      have unchanged : ∀ text, headIs (· == '(') text ≠ true → dropBracket text = text := by
        intro text other
        fun_cases dropBracket text with
        | case1 inner => exact absurd rfl other
        | case2 => rfl
      exact (unchanged _ bracket).symm

/-- An opening accepts or refuses by what stands after the gap, and notes nothing. -/
theorem opening_apply (form : Form) (c : Cursor) :
    ∃ d, form.opening c = .done (form.opens (dropGap c.rest)) d := by
  cases form with
  | letIn =>
      rw [opening, token_apply (by decide), opens]
      cases letMark.isPrefixOf (dropGap c.rest) <;> exact ⟨_, rfl⟩
  | dup =>
      rw [opening, token_apply (by decide), opens]
      cases dupMark.isPrefixOf (dropGap c.rest) <;> exact ⟨_, rfl⟩
  | lam =>
      rw [opening, lamHead, bind_apply, opens, token_apply (by decide), isPrefixOf_singleton]
      cases headIs (· == 'λ') (dropGap c.rest) with
      | true => exact ⟨_, rfl⟩
      | false =>
          -- the other spelling is looked for from the same place
          simp only [Bool.false_eq_true, if_false, Bool.false_or, Reply.done]
          rw [token_apply (by decide), isPrefixOf_singleton]
          cases headIs (· == '@') (dropGap c.rest) <;> exact ⟨_, rfl⟩
  | ctr =>
      obtain ⟨opened, d, bracket, -, rest⟩ := token_bracket c
      rw [opening, ctrHead, bind_apply, bracket, opens, ← rest]
      exact ⟨_, charTest_apply rfl d⟩
  | op2 =>
      have null : operatorChars.contains '\x00' = false := rfl
      obtain ⟨opened, d, bracket, rfl, rest⟩ := token_bracket c
      obtain ⟨char, read, passes⟩ := nextChar_apply null d
      rw [opening, op2Head, bind_apply, bracket, opens, ← rest, ← passes]
      simp only [Reply.done]
      rw [bind_apply, read]
      exact ⟨_, rfl⟩
  | app =>
      rw [opening, token_apply (by decide), isPrefixOf_singleton, opens]
      cases headIs (· == '(') (dropGap c.rest) <;> exact ⟨_, rfl⟩
  | num => exact ⟨_, charTest_apply rfl c⟩
  | chr => exact ⟨_, charTest_apply rfl c⟩
  | str => exact ⟨_, charTest_apply rfl c⟩
  | lst => exact ⟨_, charTest_apply rfl c⟩
  | var => exact ⟨_, charTest_apply rfl c⟩

/-! ## Choosing a form -/

variable (term : Parser Term)

/-- An alternative whose opening accepts is its body, noted; any other answers nothing. -/
theorem parser_apply (form : Form) (c : Cursor) :
    form.parser term c =
      if form.opens (dropGap c.rest) then
        ((some <$> form.body term) c).after [.accepted form.label c]
      else .done none c := by
  obtain ⟨d, opening⟩ := form.opening_apply c
  rw [parser, guarded, Parser.guard, opening]
  cases form.opens (dropGap c.rest) with
  | false => rfl
  | true =>
      have noted : (do note (.accepted form.label); form.body term) c =
          (form.body term c).after [.accepted form.label c] := rfl
      simp only [Reply.done, if_true, Reply.after_nil]
      rw [map_apply, map_apply, noted]
      rcases form.body term c with ⟨trace, _ | _ | _⟩ <;> rfl

/-- The choice between forms is the body of the first one that accepts the text. -/
theorem choice_forms (forms : List Form) (c : Cursor) :
    choice (forms.map (parser term)) c =
      match forms.find? (·.opens (dropGap c.rest)) with
      | some form => ((some <$> form.body term) c).after [.accepted form.label c]
      | none => .done none c := by
  induction forms with
  | nil => rfl
  | cons form forms ih =>
      simp only [List.map_cons, choice, parser_apply, List.find?_cons]
      cases form.opens (dropGap c.rest) with
      | false =>
          simp only [Bool.false_eq_true, if_false, Reply.done, Reply.after_nil]
          exact ih
      | true =>
          simp only [if_true]
          rw [map_apply]
          rcases form.body term c with ⟨trace, _ | _ | _⟩ <;> rfl

end Form

namespace Parser

/-- Reading a term is reading the body of the form that the text after the gap has, and where it
has none a term is expected after the gap. -/
theorem term_eq_body (c : Cursor) :
    term c =
      match Form.at? (dropGap c.rest) with
      | some form => (form.body term c).after [.accepted form.label c]
      | none => .failed "Term" c.skipGap := by
  rw [term_apply, grammar, Form.parsers, Form.choice_forms, ← Form.at?]
  cases Form.at? (dropGap c.rest) with
  | none => rfl
  | some form =>
      dsimp only
      rw [map_apply]
      rcases form.body term c with ⟨trace, _ | _ | _⟩ <;> rfl

/-- A term that is read leaves less than there was. -/
theorem takesText_term : TakesText term := by
  intro c value d done
  rw [term_eq_body] at done
  split at done
  · next form _ => exact form.takesText_body forward_term c value d done
  · contradiction

/-- Reading a term answers what the body of the text's form answers. -/
theorem outcome_term {c : Cursor} {form : Form} (here : Form.at? (dropGap c.rest) = some form) :
    (term c).outcome = (form.body term c).outcome := by
  rw [term_eq_body, here]
  rfl

end Parser

end Termbook
