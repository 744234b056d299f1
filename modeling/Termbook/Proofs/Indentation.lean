import Termbook.Proofs.LeadingGap
import Termbook.Proofs.Totality

/-! # Indentation

What is read does not depend on the gap before it. A term, a book, an operator or an item of a list
is read alike from the place before a gap and from the place behind it, up to the same place and
with the same fault. So is everything that may be missing: a rule, or a term in one of the forms.
Only where it is missing the two readings differ, since then nothing is read, not even the gap. -/

namespace Termbook

open Termbook.Parser
open Cursor (ofIndex)

variable {α β : Type} {c d : Cursor}

namespace Parser

/-! ## Endings from two places -/

/-- From two places a parser ends alike: with one value and one place where reading goes on, or with
one fault, which has the same label, index, line and column in every text. -/
def EndsAlike (parser : Parser α) (c d : Cursor) : Prop :=
  (∃ value next, (parser c).outcome = .done value next ∧ (parser d).outcome = .done value next) ∨
    ∃ fault, (parser c).outcome = .failed fault ∧ (parser d).outcome = .failed fault

/-- From two places an alternative answers alike: with one value and one place where reading goes
on, with one fault, or with nothing at both, where it stays. -/
def AnswersAlike (parser : Parser (Option α)) (c d : Cursor) : Prop :=
  ((parser c).outcome = .done none c ∧ (parser d).outcome = .done none d) ∨
    (∃ value next, (parser c).outcome = .done (some value) next ∧
      (parser d).outcome = .done (some value) next) ∨
    ∃ fault, (parser c).outcome = .failed fault ∧ (parser d).outcome = .failed fault

/-- A parser that ends and ignores the gap before it ends alike on both sides of the gap. -/
theorem endsAlike_of_ignoresGap {parser : Parser α} (ignores : IgnoresGap parser)
    (ends : (parser c).outcome.Ends) : EndsAlike parser c c.skipGap := by
  rw [EndsAlike, ignores]
  rcases ends with ⟨value, next, done⟩ | ⟨fault, failed⟩
  · exact .inl ⟨value, next, done, done⟩
  · exact .inr ⟨fault, failed, failed⟩

/-! ## Choices -/

/-- A choice answers alike if each of its alternatives does. -/
theorem answersAlike_choice {alternatives : List (Parser (Option α))}
    (alike : ∀ alternative ∈ alternatives, AnswersAlike alternative c d) :
    AnswersAlike (choice alternatives) c d := by
  induction alternatives with
  | nil => exact .inl ⟨rfl, rfl⟩
  | cons alternative others ih =>
      have here := alike alternative List.mem_cons_self
      have there := ih fun other member => alike other (List.mem_cons_of_mem _ member)
      simp only [AnswersAlike, choice] at here there ⊢
      revert here
      rcases alternative c with ⟨trace, outcome⟩
      rcases alternative d with ⟨trace', outcome'⟩
      rintro (⟨rfl, rfl⟩ | ⟨value, next, rfl, rfl⟩ | ⟨fault, rfl, rfl⟩)
      -- only an alternative that answers nothing leaves the choice to the others
      · exact there
      · exact .inr (.inl ⟨value, next, rfl, rfl⟩)
      · exact .inr (.inr ⟨fault, rfl, rfl⟩)

/-- A choice that has to be made ends alike on both sides of a gap if its alternatives answer alike
there. Where none answers, the fault is placed behind the gap. -/
theorem endsAlike_grammar (label : String) {alternatives : List (Parser (Option α))}
    (alike : ∀ alternative ∈ alternatives, AnswersAlike alternative c c.skipGap) :
    EndsAlike (grammar label alternatives) c c.skipGap := by
  have chosen := answersAlike_choice alike
  simp only [AnswersAlike, EndsAlike, grammar] at chosen ⊢
  revert chosen
  rcases choice alternatives c with ⟨trace, outcome⟩
  rcases choice alternatives c.skipGap with ⟨trace', outcome'⟩
  rintro (⟨rfl, rfl⟩ | ⟨value, next, rfl, rfl⟩ | ⟨fault, rfl, rfl⟩)
  · refine .inr ⟨⟨label, c.skipGap⟩, rfl, ?_⟩
    simp only [c.skipGap_skipGap]
  · exact .inl ⟨value, next, rfl, rfl⟩
  · exact .inr ⟨fault, rfl, rfl⟩

/-- How a parser that may go back ends. -/
theorem outcome_maybe (parser : Parser (Option α)) (c : Cursor) :
    (maybe parser c).outcome =
      match (parser c).outcome with
      | .done none _ => .done none c
      | outcome => outcome := by
  rw [maybe]
  rcases parser c with ⟨trace, ⟨_ | _, _⟩ | _ | _⟩ <;> rfl

/-- A sequence that may go back answers alike if its first part does, and if its second part has
nothing to answer after nothing. -/
theorem answersAlike_maybe_bind {first : Parser (Option α)}
    {next : Option α → Parser (Option β)} (alike : AnswersAlike first c d)
    (nothing : ∀ e, (next none e).outcome = .done none e)
    (ends : (maybe (first >>= next) c).outcome.Ends) :
    AnswersAlike (maybe (first >>= next)) c d := by
  rw [AnswersAlike, outcome_maybe, outcome_maybe] at *
  rcases alike with ⟨here, there⟩ | ⟨value, e, here, there⟩ | ⟨fault, here, there⟩
  · rw [outcome_bind_of_done here, outcome_bind_of_done there, nothing, nothing]
    exact .inl ⟨rfl, rfl⟩
  · -- from here on the two readings are one
    rw [outcome_bind_of_done here] at ends
    rw [outcome_bind_of_done here, outcome_bind_of_done there]
    revert ends
    rcases (next (some value) e).outcome with ⟨_ | value', e'⟩ | fault | _
    · exact fun _ => .inl ⟨rfl, rfl⟩
    · exact fun _ => .inr (.inl ⟨value', e', rfl, rfl⟩)
    · exact fun _ => .inr (.inr ⟨fault, rfl, rfl⟩)
    · exact fun ends => absurd rfl (Outcome.ends_iff.mp ends)
  · rw [outcome_bind_eq_failed.mpr (.inl here), outcome_bind_eq_failed.mpr (.inl there)]
    exact .inr (.inr ⟨fault, rfl, rfl⟩)

end Parser

/-! ## Terms -/

namespace Form

/-- Every body ends alike on both sides of a gap. -/
theorem endsAlike_body (form : Form) (c : Cursor) : EndsAlike (form.body term) c c.skipGap :=
  endsAlike_of_ignoresGap (ignoresGap_body term form)
    (inherited_ends.bodyClosed.body takesText_term ends_term form c)

/-- The alternative for a form answers alike on both sides of a gap: its opening looks only at what
stands behind the gap, and so does its body. -/
theorem answersAlike_form (form : Form) (c : Cursor) :
    AnswersAlike (form.parser term) c c.skipGap := by
  rw [AnswersAlike, parser_apply, parser_apply, Cursor.rest_skipGap, dropGap_dropGap]
  by_cases opens : form.opens (dropGap c.rest) = true
  · rw [if_pos opens, if_pos opens, Reply.outcome_after, Reply.outcome_after]
    right
    rcases form.endsAlike_body c with ⟨value, next, here, there⟩ | ⟨fault, here, there⟩
    · exact .inl ⟨value, next, outcome_map_eq_done.mpr ⟨value, here, rfl⟩,
        outcome_map_eq_done.mpr ⟨value, there, rfl⟩⟩
    · exact .inr ⟨fault, outcome_map_eq_failed.mpr here, outcome_map_eq_failed.mpr there⟩
  · rw [if_neg opens, if_neg opens]
    exact .inl ⟨rfl, rfl⟩

/-- An operator is looked for behind the gap. -/
theorem answersAlike_operParser (oper : Oper) (c : Cursor) :
    AnswersAlike (operParser oper) c c.skipGap := by
  rw [AnswersAlike, operParser]
  rcases flags_token oper.symbol.toList c with ⟨d, there, here⟩ | ⟨there, here⟩
  · rw [outcome_bind_of_done here, outcome_bind_of_done there]
    exact .inr (.inl ⟨oper, d, rfl, rfl⟩)
  · rw [outcome_bind_of_done here, outcome_bind_of_done there]
    exact .inl ⟨rfl, rfl⟩

/-- Operators end alike on both sides of a gap. -/
theorem endsAlike_operReader (c : Cursor) : EndsAlike operReader c c.skipGap := by
  refine endsAlike_grammar "Oper" fun alternative member => ?_
  obtain ⟨oper, -, rfl⟩ := List.mem_map.mp member
  exact answersAlike_operParser oper c

/-- The items of a list end alike on both sides of a gap. -/
theorem endsAlike_lstItem (c : Cursor) : EndsAlike (lstItem term) c c.skipGap :=
  endsAlike_of_ignoresGap (ignoresGap_bind ignoresGap_term _)
    (inherited_ends.bodyClosed.lstItem ends_term c)

end Form

namespace Parser

/-- Terms end alike on both sides of a gap. -/
theorem endsAlike_term (c : Cursor) : EndsAlike term c c.skipGap :=
  endsAlike_of_ignoresGap ignoresGap_term (ends_term c)

/-! ## Rules and books -/

/-- Rules are answered alike on both sides of a gap. -/
theorem answersAlike_rule (c : Cursor) : AnswersAlike rule c c.skipGap := by
  refine answersAlike_maybe_bind (answersAlike_choice fun alternative member => ?_)
    (fun _ => rfl) (ends_rule c)
  obtain ⟨form, -, rfl⟩ := List.mem_map.mp member
  exact form.answersAlike_form c

/-- The parser of books ignores the gap before it: the loop over the rules starts with that gap. -/
theorem ignoresGap_book : IgnoresGap book := by
  intro c
  rw [book, outcome_map, outcome_map, outcome_rules_congr c.skipGap_skipGap 0 0]

/-- Books end alike on both sides of a gap. -/
theorem endsAlike_book (c : Cursor) : EndsAlike book c c.skipGap :=
  endsAlike_of_ignoresGap ignoresGap_book (ends_book c)

end Parser

/-- The gap before a phrase makes no difference. From any place of a text, also beyond its end, and
from the place to which skipping the gap leads, the readers of terms, books, operators and items of
lists end alike, and the readers of rules and of terms in one of the forms answer alike: with the
same value and place, with the same fault, or with nothing, staying where they are. -/
theorem leading_gap_ignored (text : List Char) (i : Nat) :
    ∃ k, (∃ moved, skip (ofIndex text i) = .done moved (ofIndex text k)) ∧
      (EndsAlike term (ofIndex text i) (ofIndex text k) ∧
        EndsAlike book (ofIndex text i) (ofIndex text k) ∧
        EndsAlike Form.operReader (ofIndex text i) (ofIndex text k) ∧
        EndsAlike (Form.lstItem term) (ofIndex text i) (ofIndex text k)) ∧
      AnswersAlike rule (ofIndex text i) (ofIndex text k) ∧
      ∀ form : Form, AnswersAlike (form.parser term) (ofIndex text i) (ofIndex text k) := by
  obtain ⟨k, atGap⟩ : ∃ k, (ofIndex text i).skipGap = ofIndex text k :=
    ⟨_, Cursor.advance_ofIndex text i _⟩
  refine ⟨k, ⟨_, congrArg (Reply.done _) atGap⟩, ?_⟩
  rw [← atGap]
  exact ⟨⟨endsAlike_term _, endsAlike_book _, Form.endsAlike_operReader _,
    Form.endsAlike_lstItem _⟩, answersAlike_rule _, fun form => form.answersAlike_form _⟩

end Termbook
