import Termbook.Expression.Basic
import Termbook.Proofs.Acceptance

/-! # Places of parser expressions

Every parser expression goes forward, however it is nested: it stops onward from its start, and its
faults are placed onward too. Told as indices, no place lies before the start, none lies beyond the
end of the text unless the start does, and run step by step the places of a run never go back. -/

namespace Termbook

open Termbook.Parser
open Cursor (ofIndex)

/-! ## Indices -/

/-- A place onward from an index of a text is an index of that text, not before the first one and
not newly beyond the end. -/
theorem Cursor.Onward.exists_index {text : List Char} {i : Nat} {place : Cursor}
    (onward : (ofIndex text i).Onward place) :
    ∃ j, place = ofIndex text j ∧ i ≤ j ∧ j ≤ max i text.length := by
  obtain ⟨count, rfl⟩ := onward
  exact ⟨_, advance_ofIndex text i count, by omega, by omega⟩

/-! ## Expressions -/

namespace Expression

/-- A closing reads with the parser that it is made of. -/
theorem parser_closingOf (expression : Expression) (parser : Parser Bool) :
    (expression.closingOf parser).parser = parser := by
  cases expression <;> rfl

mutual

/-- Every expression goes forward. -/
theorem forward_eval (expression : Expression) : Forward expression.eval := by
  cases expression with
  | peek => exact forward_map _ forward_peek
  | advance => exact forward_map _ forward_advance
  | skip => exact forward_map _ forward_skip
  | skipBlanks => exact forward_map _ forward_skipBlanks
  | skipComment => exact forward_map _ forward_skipComment
  | nextChar => exact forward_map _ forward_nextChar
  | name => exact forward_map _ forward_name
  | requireName => exact forward_map _ forward_requireName
  | atEnd => exact forward_map _ forward_atEnd
  | place => exact forward_map _ forward_here
  | token pattern => exact forward_map _ (forward_token pattern)
  | exactly pattern => exact forward_map _ (forward_exactly pattern)
  | require pattern => exact forward_map _ (forward_require pattern)
  | closing pattern => exact forward_map _ (forward_token pattern)
  | charTest test => exact forward_map _ (forward_charTest test)
  | operator wanted => exact forward_map _ (Form.forward_operParser wanted)
  | oper => exact forward_map _ Form.forward_operReader
  | term => exact forward_map _ forward_term
  | rule => exact forward_map _ forward_rule
  | book => exact forward_map _ forward_book
  | lstItem => exact forward_map _ (Form.forward_lstItem forward_term)
  | form wanted =>
      exact forward_map _ (forward_guarded _ _ (Form.forward_body forward_term wanted))
  | opening wanted => exact forward_map _ (Form.forward_opening wanted)
  | body wanted => exact forward_map _ (Form.forward_body forward_term wanted)
  | nothing => exact forward_pure _
  | maybe inner => exact forward_map _ (forward_maybe (forward_map _ (forward_eval inner)))
  | guard ask inner => exact forward_map _ (forward_guard _ (forward_eval inner))
  | guarded label ask inner => exact forward_map _ (forward_guarded label _ (forward_eval inner))
  | manyUntil stop element =>
      refine forward_map _ (forward_manyUntil ?_ (forward_eval element))
      -- the name that a closing lends to the repetition has no part in its reading
      rw [parser_closingOf]
      exact forward_map _ (forward_eval stop)
  | sequence first last element =>
      exact forward_map _ (forward_sequence first last (forward_eval element))
  | choice alternatives => exact forward_map _ (forward_choice (forward_evalAll alternatives))
  | grammar label alternatives => exact forward_grammar label (forward_evalAll alternatives)

/-- Every alternative among some expressions goes forward. -/
theorem forward_evalAll (expressions : List Expression) :
    ∀ alternative ∈ evalAll expressions, Forward alternative := by
  cases expressions with
  | nil => exact nofun
  | cons expression rest =>
      intro alternative member
      rcases List.mem_cons.mp member with rfl | member
      · exact forward_map _ (forward_eval expression)
      · exact forward_evalAll rest alternative member

end

/-! ## Steps -/

variable {ε : Type}

/-- The places of a run: where it starts, and where it stands after each of its steps. -/
def places (start : Cursor) : List (Except ε (Outcome Value)) → List Cursor
  | [] => [start]
  | .ok (.done _ next) :: rest => start :: places next rest
  | _ :: rest => start :: places start rest

/-- After a step a run stands onward from where the step started, and goes on from there. -/
theorem places_run_cons (step : Except ε Expression) (steps : List (Except ε Expression))
    (start : Cursor) :
    ∃ next, start.Onward next ∧
      places start (run (step :: steps) start) = start :: places next (run steps next) := by
  cases step with
  | error reason => exact ⟨start, .refl start, rfl⟩
  | ok expression =>
      have forward := expression.forward_eval start
      simp only [run]
      revert forward
      cases (expression.eval start).outcome with
      | done value next => exact fun onward => ⟨next, onward, rfl⟩
      | failed fault => exact fun _ => ⟨start, .refl start, rfl⟩
      | endless => exact fun _ => ⟨start, .refl start, rfl⟩

/-- The places of a run from an index of a text are ascending indices of that text, of which none
lies newly beyond its end. -/
theorem exists_indices_of_run (text : List Char) (i : Nat) (steps : List (Except ε Expression)) :
    ∃ indices : List Nat,
      places (ofIndex text i) (run steps (ofIndex text i)) = indices.map (ofIndex text) ∧
        indices.Pairwise (· ≤ ·) ∧ ∀ j ∈ indices, i ≤ j ∧ j ≤ max i text.length := by
  induction steps generalizing i with
  | nil =>
      refine ⟨[i], rfl, List.pairwise_singleton _ _, fun j member => ?_⟩
      obtain rfl := List.mem_singleton.mp member
      exact ⟨Nat.le_refl _, Nat.le_max_left _ _⟩
  | cons step steps ih =>
      obtain ⟨next, onward, here⟩ := places_run_cons step steps (ofIndex text i)
      obtain ⟨k, rfl, notBefore, within⟩ := onward.exists_index
      obtain ⟨indices, there, ascending, between⟩ := ih k
      refine ⟨i :: indices, by rw [here, there, List.map_cons], ?_, fun j member => ?_⟩
      · refine List.pairwise_cons.mpr ⟨fun j member => ?_, ascending⟩
        exact Nat.le_trans notBefore (between j member).1
      · rcases List.mem_cons.mp member with rfl | member
        · exact ⟨Nat.le_refl _, Nat.le_max_left _ _⟩
        · have := between j member
          omega

/-- Every expression keeps to its text: from an index it stops at an index that is not before it and
not newly beyond the end, and a fault is reported at such an index, with the line and the column of
that index. So the indices of a run of any steps never go back and never newly leave the text. -/
theorem eval_keeps_to_text (expression : Expression) (text : List Char) (i : Nat) :
    (∀ value next, (expression.eval (ofIndex text i)).outcome = .done value next →
        ∃ j, next = ofIndex text j ∧ i ≤ j ∧ j ≤ max i text.length) ∧
      (∀ fault, (expression.eval (ofIndex text i)).outcome = .failed fault →
        ∃ j, fault.report text = ⟨fault.expected, j, Location.ofIndex text j⟩ ∧
          fault.place = ofIndex text j ∧ i ≤ j ∧ j ≤ max i text.length) ∧
      ∀ (ε : Type) (steps : List (Except ε Expression)), ∃ indices : List Nat,
        places (ofIndex text i) (run steps (ofIndex text i)) = indices.map (ofIndex text) ∧
          indices.Pairwise (· ≤ ·) ∧ ∀ j ∈ indices, i ≤ j ∧ j ≤ max i text.length := by
  refine ⟨fun value next done => ?_, fun fault failed => ?_, fun ε steps => ?_⟩
  · exact (expression.forward_eval.onward done).exists_index
  · have onward := expression.forward_eval (ofIndex text i)
    rw [failed] at onward
    obtain ⟨j, place, notBefore, within⟩ := Cursor.Onward.exists_index onward
    refine ⟨j, ?_, place, notBefore, within⟩
    rw [Fault.report, place, Cursor.index_ofIndex]
  · exact exists_indices_of_run text i steps

/-- Behind a name and a space, a guarded operator sign is read up to the end of the text; and where
one alternative tests for a comma and goes back, and the next one misses its sign, the fault is
placed after the gap. -/
theorem eval_keeps_to_text_choice :
    ((guarded "op2" (token ['*']) nextChar).eval (ofIndex ['a', ' ', '*'] 1)).outcome =
        .done (.text "*") (ofIndex ['a', ' ', '*'] 3) ∧
      (∃ j, ofIndex ['a', ' ', '*'] 3 = ofIndex ['a', ' ', '*'] j ∧ 1 ≤ j ∧ j ≤ max 1 3) ∧
      ((choice [maybe (charTest (· == ',')), require ['=']]).eval
        (ofIndex ['a', ' ', '*'] 1)).outcome = .failed ⟨"=", ofIndex ['a', ' ', '*'] 2⟩ ∧
      ∃ j, (Fault.mk "=" (ofIndex ['a', ' ', '*'] 2)).report ['a', ' ', '*'] =
          ⟨"=", j, Location.ofIndex ['a', ' ', '*'] j⟩ ∧
        ofIndex ['a', ' ', '*'] 2 = ofIndex ['a', ' ', '*'] j ∧ 1 ≤ j ∧ j ≤ max 1 3 := by
  have done : ((guarded "op2" (token ['*']) nextChar).eval (ofIndex ['a', ' ', '*'] 1)).outcome =
      .done (.text "*") (ofIndex ['a', ' ', '*'] 3) := rfl
  have failed : ((choice [maybe (charTest (· == ',')), require ['=']]).eval
      (ofIndex ['a', ' ', '*'] 1)).outcome = .failed ⟨"=", ofIndex ['a', ' ', '*'] 2⟩ := rfl
  exact ⟨done, (eval_keeps_to_text _ _ 1).1 _ _ done, failed,
    (eval_keeps_to_text _ _ 1).2.1 _ failed⟩

end Expression

end Termbook
