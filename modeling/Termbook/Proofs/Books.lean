import Termbook.Proofs.RoundTrip

/-! # Books are read rule by rule

A rule has no mark at its end, so that the next rule begins is found from the grammar of terms
alone. What the loop over the rules does at a place depends on what stands after the gap there and
not on how many rules came before; so a book that begins with printed rules is read as those rules
and then as the rest of the book would be read by itself. -/

namespace Termbook

open Termbook.Parser
open Cursor (start)

variable {α β : Type} {text rest : List Char} {c d : Cursor}

/-- The same outcome with a changed value. -/
def Outcome.map (change : α → β) : Outcome α → Outcome β
  | .done value next => .done (change value) next
  | .failed fault => .failed fault
  | .endless => .endless

@[simp] theorem Outcome.map_map {γ : Type} (change : α → β) (again : β → γ)
    (outcome : Outcome α) : (outcome.map change).map again = outcome.map (again ∘ change) := by
  cases outcome <;> rfl

namespace Parser

/-! ## Outcomes -/

/-- Changing the value of a parser changes that of its outcome. -/
theorem outcome_map (change : α → β) (parser : Parser α) (c : Cursor) :
    ((change <$> parser) c).outcome = (parser c).outcome.map change := by
  rw [map_apply]
  rcases parser c with ⟨trace, _ | _ | _⟩ <;> rfl

/-- A sequence that ends with a changed value changes the value of its first part. -/
theorem outcome_bind_pure (change : α → β) (parser : Parser α) (c : Cursor) :
    ((do return change (← parser)) c).outcome = (parser c).outcome.map change := by
  rw [bind_apply]
  rcases parser c with ⟨trace, _ | _ | _⟩ <;> rfl

/-- Where a parser answers a value, going back if it answers none makes no difference. -/
theorem outcome_maybe_eq_some {parser : Parser (Option α)} {value : α} :
    (maybe parser c).outcome = .done (some value) d ↔
      (parser c).outcome = .done (some value) d := by
  rw [maybe]
  rcases parser c with ⟨trace, ⟨_ | _, _⟩ | _ | _⟩ <;> simp

/-- Going back is no fault. -/
theorem outcome_maybe_eq_failed {parser : Parser (Option α)} {fault : Fault} :
    (maybe parser c).outcome = .failed fault ↔ (parser c).outcome = .failed fault := by
  rw [maybe]
  rcases parser c with ⟨trace, ⟨_ | _, _⟩ | _ | _⟩ <;> simp

/-- The alternatives for a term answer a term where the parser of terms reads it. -/
theorem outcome_choice_eq_some {value : Term} :
    (choice (Form.parsers term) c).outcome = .done (some value) d ↔
      (term c).outcome = .done value d := by
  rw [term_apply, grammar]
  rcases choice (Form.parsers term) c with ⟨trace, ⟨_ | _, _⟩ | _ | _⟩ <;> simp

/-- Where the alternatives for a term fail, the parser of terms does. -/
theorem outcome_term_of_choice_failed {fault : Fault}
    (failed : (choice (Form.parsers term) c).outcome = .failed fault) :
    (term c).outcome = .failed fault := by
  rw [term_apply, grammar]
  revert failed
  rcases choice (Form.parsers term) c with ⟨trace, ⟨_ | _, _⟩ | _ | _⟩ <;> simp

/-! ## Rules -/

/-- A rule is read as a term, an equals sign and a term. -/
theorem outcome_rule_eq_some {read : Rule} :
    (rule c).outcome = .done (some read) d ↔
      ∃ e e', (term c).outcome = .done read.lhs e ∧ (token ['='] e).outcome = .done true e' ∧
        (term e').outcome = .done read.rhs d := by
  rw [rule, outcome_maybe_eq_some, outcome_bind_eq_done]
  constructor
  · rintro ⟨lhs, e, left, done⟩
    cases lhs with
    | none => cases done
    | some lhs =>
        obtain ⟨found, e', equals, done⟩ := outcome_bind_eq_done.mp done
        cases found with
        | false => cases done
        | true =>
            obtain ⟨rhs, e'', right, done⟩ := outcome_bind_eq_done.mp done
            cases done
            exact ⟨e, e', outcome_choice_eq_some.mp left, equals, right⟩
  · rintro ⟨e, e', left, equals, right⟩
    refine ⟨some read.lhs, e, outcome_choice_eq_some.mpr left, ?_⟩
    refine outcome_bind_eq_done.mpr ⟨true, e', equals, ?_⟩
    exact outcome_bind_eq_done.mpr ⟨read.rhs, d, right, rfl⟩

/-- A rule that is read leaves less than there was. -/
theorem remaining_lt_of_rule {read : Rule} (done : (rule c).outcome = .done (some read) d) :
    d.remaining < c.remaining := by
  obtain ⟨e, e', left, equals, right⟩ := outcome_rule_eq_some.mp done
  have := takesText_term _ _ _ left
  have := ((forward_token _).onward equals).remaining_le
  have := (forward_term.onward right).remaining_le
  omega

/-- Where what stands behind an equals sign is no term, the fault in it is that of the rule. -/
theorem outcome_rule_of_rhs_failed {lhs : Term} {e e' : Cursor} {fault : Fault}
    (left : (term c).outcome = .done lhs e) (equals : (token ['='] e).outcome = .done true e')
    (right : (term e').outcome = .failed fault) : (rule c).outcome = .failed fault := by
  refine outcome_maybe_eq_failed.mpr (outcome_bind_eq_failed.mpr (.inr
    ⟨_, _, outcome_choice_eq_some.mpr left, ?_⟩))
  refine outcome_bind_eq_failed.mpr (.inr ⟨true, e', equals, ?_⟩)
  exact outcome_bind_eq_failed.mpr (.inl right)

/-- A rule of a book is a rule after the gap, noted when it has been read. -/
theorem numberedRule_apply (number : Nat) (c : Cursor) :
    numberedRule number c =
      match rule c.skipGap with
      | ⟨trace, .done (some read) d⟩ =>
          ⟨trace ++ [.ruleRead number c.skipGap read], .done read d⟩
      | ⟨trace, .done none _⟩ => ⟨trace, .failed ⟨"definition", c.skipGap⟩⟩
      | ⟨trace, .failed fault⟩ => ⟨trace, .failed fault⟩
      | ⟨trace, .endless⟩ => ⟨trace, .endless⟩ := by
  have atGap : skip c = .done (c.skipGap.remaining != c.remaining) c.skipGap := rfl
  have atPlace : here c.skipGap = .done c.skipGap c.skipGap := rfl
  rw [numberedRule, bind_apply, atGap]
  simp only [Reply.done, Reply.after_nil]
  rw [bind_apply, atPlace]
  simp only [Reply.done, Reply.after_nil]
  rw [bind_apply]
  rcases rule c.skipGap with ⟨trace, ⟨_ | read, d⟩ | fault | _⟩
  · simp only [failAt, Reply.failed, Reply.after, List.append_nil]
  · rfl
  · rfl
  · rfl

/-- A rule of a book is read where a rule stands after the gap. -/
theorem outcome_numberedRule_eq_done {number : Nat} {read : Rule} :
    (numberedRule number c).outcome = .done read d ↔
      (rule c.skipGap).outcome = .done (some read) d := by
  rw [numberedRule_apply]
  rcases rule c.skipGap with ⟨trace, ⟨_ | found, e⟩ | fault | _⟩ <;> simp

theorem takesText_numberedRule (number : Nat) : TakesText (numberedRule number) := by
  intro c read d done
  have less := remaining_lt_of_rule (outcome_numberedRule_eq_done.mp done)
  exact Nat.lt_of_lt_of_le less c.remaining_skipGap_le

/-- How the reading of a rule of a book ends depends neither on its number nor on the gap before
it. -/
theorem outcome_numberedRule_congr (sameGap : c.skipGap = d.skipGap) (number number' : Nat) :
    (numberedRule number c).outcome = (numberedRule number' d).outcome := by
  rw [numberedRule_apply, numberedRule_apply, sameGap]
  rcases rule d.skipGap with ⟨trace, ⟨_ | read, e⟩ | fault | _⟩ <;> rfl

end Parser

/-! ## The loop over the rules -/

/-- The parser of the rules of a book, of which the first one gets a number. -/
abbrev Parser.rules (number : Nat) : Parser (List Rule) :=
  manyUntilFrom (.ofParser atEnd) numberedRule number

/-- The rules end where nothing stands after the gap, and go on with a rule elsewhere. -/
theorem rules_apply (number : Nat) (c : Cursor) :
    Parser.rules number c =
      if c.skipGap.rest = [] then .done [] c.skipGap
      else (do
        let read ← numberedRule number
        return read :: (← Parser.rules (number + 1))) c := by
  rw [Parser.rules, manyUntilFrom_apply takesText_numberedRule, Parser.round, bind_apply]
  by_cases ended : c.skipGap.rest = []
  · have closed : closes (.ofParser atEnd) c = .done true c.skipGap := by
      have isEmpty : c.skipGap.rest.isEmpty = true := List.isEmpty_iff.mpr ended
      simp only [closes, Closing.ofParser, atEnd, isEmpty, Reply.done]
    rw [closed, if_pos ended]
    rfl
  · have open_ : closes (.ofParser atEnd) c = .done false c := by
      have notEmpty : c.skipGap.rest.isEmpty = false := List.isEmpty_eq_false_iff.mpr ended
      simp only [closes, Closing.ofParser, atEnd, notEmpty, Reply.done]
    rw [open_, if_neg ended]
    simp only [Reply.done, Bool.false_eq_true, if_false, readOn, Reply.after_nil]
    rw [if_neg (mt List.isEmpty_iff.mp ended)]

/-- How the rules end follows from how a rule and the rules after it do. -/
theorem outcome_rules (number : Nat) (c : Cursor) :
    (Parser.rules number c).outcome =
      if c.skipGap.rest = [] then .done [] c.skipGap
      else ((do
        let read ← numberedRule number
        return read :: (← Parser.rules (number + 1))) c).outcome := by
  rw [rules_apply, apply_ite Reply.outcome]
  rfl

/-- How the reading of rules ends depends neither on the number of the first one nor on the gap
before it. -/
theorem outcome_rules_congr (sameGap : c.skipGap = d.skipGap) (number number' : Nat) :
    (Parser.rules number c).outcome = (Parser.rules number' d).outcome := by
  induction size : c.remaining using Nat.strongRecOn generalizing c d number number' with
  | ind size ih =>
      rw [outcome_rules, outcome_rules, ← sameGap]
      split
      · rfl
      · refine outcome_bind_congr (outcome_numberedRule_congr sameGap _ _) fun read e done => ?_
        have less := takesText_numberedRule number c read e done
        exact outcome_bind_congr (ih _ (size ▸ less) rfl _ _ rfl) fun _ _ _ => rfl

/-- Where the text is not all gap, reading a book goes on from what reading the rule behind the gap
ends with. -/
theorem Parser.outcome_book (left : c.skipGap.rest ≠ []) :
    (book c).outcome =
      match (rule c.skipGap).outcome with
      | .done (some read) d => (rules 1 d).outcome.map fun others => ⟨read :: others⟩
      | .done none _ => .failed ⟨"definition", c.skipGap⟩
      | .failed fault => .failed fault
      | .endless => .endless := by
  rw [book, outcome_map, outcome_rules, if_neg left, bind_apply, numberedRule_apply]
  rcases rule c.skipGap with ⟨trace, ⟨_ | read, d⟩ | fault | _⟩
  · rfl
  · dsimp only
    rw [Reply.outcome_after, outcome_bind_pure, Outcome.map_map]
    rfl
  · rfl
  · rfl

/-- Where a rule stands behind the gap and nothing after it, a book has that rule alone. -/
theorem Parser.outcome_book_of_rule {read : Rule} (left : c.skipGap.rest ≠ [])
    (done : (rule c.skipGap).outcome = .done (some read) d) (ended : d.skipGap.rest = []) :
    (book c).outcome = .done ⟨[read]⟩ d.skipGap := by
  rw [outcome_book left, done]
  dsimp only
  rw [outcome_rules, if_pos ended]
  rfl

/-! ## Printed rules -/

/-- A rule between two printable terms. -/
def Rule.Printable (rule : Rule) : Prop :=
  rule.lhs.Printable ∧ rule.rhs.Printable

/-- Printed rules, each with a newline after it, before another text. -/
def ruleLines (rules : List Rule) (text : List Char) : List Char :=
  rules.flatMap (fun rule => rule.render.toList ++ ['\n']) ++ text

theorem ruleLines_cons (rule : Rule) (rules : List Rule) (text : List Char) :
    ruleLines (rule :: rules) text =
      rule.lhs.render.toList ++ ' ' :: '=' :: ' ' :: (rule.rhs.render.toList ++
        '\n' :: ruleLines rules text) := by
  simp [ruleLines, Rule.render, String.toList_append]

/-- A newline at the front of a text belongs to the gap there. -/
theorem skipGap_start_newline (text : List Char) :
    (start ('\n' :: text)).skipGap = (start text).skipGap := by
  have isGap : IsGap ['\n'] := .blank isBlank_newline .nil
  rw [Cursor.skipGap_start, Cursor.skipGap_start]
  exact congrArg start (isGap.dropGap_append text)

/-- Printed rules and a newline are the lines of the rules, if there are any. -/
theorem render_append_newline {rules : List Rule} (nonempty : rules ≠ []) (text : List Char) :
    (Book.mk rules).render.toList ++ '\n' :: text = ruleLines rules text := by
  simp only [Book.render]
  induction rules with
  | nil => exact absurd rfl nonempty
  | cons rule others ih =>
      cases others with
      | nil => simp [ruleLines]
      | cons other others =>
          rw [List.map_cons, List.map_cons, String.intercalate_cons_cons]
          have := ih (by simp)
          rw [List.map_cons] at this
          simp only [String.toList_append, List.append_assoc, this]
          simp [ruleLines]

/-- A printed rule is read back where no name goes on after it. -/
theorem Rule.Printable.outcome_rule {read : Rule} (printable : read.Printable)
    (ends : EndsName rest) :
    (Parser.rule (start (read.lhs.render.toList ++ ' ' :: '=' :: ' ' ::
      (read.rhs.render.toList ++ rest)))).outcome = .done (some read) (start rest) := by
  obtain ⟨left, right⟩ := printable
  have rhs : Derives (read.rhs.render.toList ++ rest) (.term read.rhs) rest :=
    (right.legible true).derives_render right.wellNamed ends fun _ => rfl
  have lhs : Derives (read.lhs.render.toList ++ ' ' :: '=' :: ' ' :: (read.rhs.render.toList ++
      rest)) (.term read.lhs) (' ' :: '=' :: ' ' :: (read.rhs.render.toList ++ rest)) :=
    (left.legible true).derives_render left.wellNamed (endsName_cons rfl) fun _ => rfl
  refine outcome_rule_eq_some.mpr ⟨_, _, outcome_term_start_iff.mpr lhs,
    outcome_tokenChar_of_after rfl (.space _), ?_⟩
  exact outcome_term_start_iff.mpr (rhs.of_after (.space _))

/-- A printed rule begins right where it stands. -/
theorem Rule.Printable.skipGap_start {read : Rule} (printable : read.Printable)
    (text : List Char) :
    (start (read.lhs.render.toList ++ text)).skipGap = start (read.lhs.render.toList ++ text) ∧
      dropGap (read.lhs.render.toList ++ text) ≠ [] := by
  obtain ⟨c, others, shape, solid, -⟩ := printable.1.wellNamed.exists_plain_eq_cons text
  have here : dropGap (c :: others) = c :: others := (significant_cons solid).dropGap_eq
  rw [Term.render_eq_plain, shape, Cursor.skipGap_start, here]
  exact ⟨rfl, nofun⟩

/-- Printed rules are read back before any text, and then that text is read as it would be by
itself. -/
theorem outcome_rules_ruleLines {rules : List Rule} (printable : ∀ rule ∈ rules, rule.Printable)
    (text : List Char) (number : Nat) :
    (Parser.rules number (start (ruleLines rules text))).outcome =
      (Parser.rules 0 (start text)).outcome.map (rules ++ ·) := by
  induction rules generalizing number with
  | nil =>
      have same : (Parser.rules number (start text)).outcome =
          (Parser.rules 0 (start text)).outcome := outcome_rules_congr rfl _ _
      rw [ruleLines, List.flatMap_nil, List.nil_append, same]
      cases (Parser.rules 0 (start text)).outcome <;> rfl
  | cons read others ih =>
      have readPrintable := printable read List.mem_cons_self
      have restPrintable : ∀ rule ∈ others, rule.Printable := fun rule member =>
        printable rule (List.mem_cons_of_mem _ member)
      obtain ⟨atRule, left⟩ := readPrintable.skipGap_start (' ' :: '=' :: ' ' ::
        (read.rhs.render.toList ++ '\n' :: ruleLines others text))
      have done : (numberedRule number (start (ruleLines (read :: others) text))).outcome =
          .done read (start ('\n' :: ruleLines others text)) := by
        rw [outcome_numberedRule_eq_done, ruleLines_cons, atRule]
        exact readPrintable.outcome_rule (endsName_cons rfl)
      -- the newline after the rule is a gap before the next one
      have newline := skipGap_start_newline (ruleLines others text)
      calc (Parser.rules number (start (ruleLines (read :: others) text))).outcome
        _ = ((do return read :: (← Parser.rules (number + 1)))
              (start ('\n' :: ruleLines others text))).outcome := by
            rw [outcome_rules, if_neg, outcome_bind_of_done done]
            rw [ruleLines_cons, Cursor.rest_skipGap, Cursor.rest_start]
            exact left
        _ = (Parser.rules (number + 1) (start ('\n' :: ruleLines others text))).outcome.map
              (read :: ·) := outcome_bind_pure _ _ _
        _ = (Parser.rules 0 (start text)).outcome.map (read :: others ++ ·) := by
            rw [outcome_rules_congr newline _ (number + 1), ih restPrintable, Outcome.map_map]
            rfl

/-! ## Books -/

/-- A book that begins with printed rules ends as the rest of the book does by itself, with those
rules before the others. -/
theorem outcome_readBook_render {rules : List Rule} (printable : ∀ rule ∈ rules, rule.Printable)
    (text : List Char) :
    (readBook ((Book.mk rules).render.toList ++ '\n' :: text)).outcome =
      (readBook text).outcome.map fun book => ⟨rules ++ book.rules⟩ := by
  have sameLoop : (Parser.rules 0 (start ((Book.mk rules).render.toList ++ '\n' :: text))).outcome =
      (Parser.rules 0 (start text)).outcome.map (rules ++ ·) := by
    by_cases empty : rules = []
    · subst empty
      have same : (Parser.rules 0 (start ('\n' :: text))).outcome =
          (Parser.rules 0 (start text)).outcome :=
        outcome_rules_congr (skipGap_start_newline text) 0 0
      refine same.trans ?_
      cases (Parser.rules 0 (start text)).outcome <;> rfl
    · rw [render_append_newline empty, outcome_rules_ruleLines printable]
  rw [readBook, readBook, book, outcome_map, outcome_map, sameLoop, Outcome.map_map,
    Outcome.map_map]
  rfl

/-- A place onward from the start of a text has its index shifted by what is put before the text. -/
theorem Cursor.Onward.index_append {place : Cursor} (onward : (start text).Onward place)
    (before : List Char) :
    place.index (before ++ text).length = before.length + place.index text.length := by
  have within := onward.beyond_eq
  have short := onward.remaining_le
  rw [Cursor.beyond_start] at within
  rw [Cursor.remaining_start] at short
  rw [Cursor.index, Cursor.index, within, List.length_append]
  omega

/-- Printing a book composes with reading: printed rules before a text are read if and only if the
text is, and are then the first rules; and if reading the text fails, reading the whole fails with
the same label at the index shifted by the printed rules and the newline after them. -/
theorem book_render_composes (rules : List Rule) (printable : ∀ rule ∈ rules, rule.Printable)
    (text : List Char) :
    ((∃ book d, (readBook ((Book.mk rules).render.toList ++ '\n' :: text)).outcome = .done book d) ↔
      ∃ book d, (readBook text).outcome = .done book d) ∧
    (∀ book d, (readBook text).outcome = .done book d → ∃ e,
      (readBook ((Book.mk rules).render.toList ++ '\n' :: text)).outcome =
        .done ⟨rules ++ book.rules⟩ e) ∧
    (∀ fault, (readBook text).outcome = .failed fault → ∃ fault',
      (readBook ((Book.mk rules).render.toList ++ '\n' :: text)).outcome = .failed fault' ∧
        (fault'.report ((Book.mk rules).render.toList ++ '\n' :: text)).expected =
          (fault.report text).expected ∧
        (fault'.report ((Book.mk rules).render.toList ++ '\n' :: text)).index =
          (Book.mk rules).render.length + 1 + (fault.report text).index) := by
  have composed := outcome_readBook_render printable text
  refine ⟨⟨?_, ?_⟩, ?_, ?_⟩
  · rintro ⟨book, d, done⟩
    rw [composed] at done
    cases alone : (readBook text).outcome with
    | done book d => exact ⟨book, d, rfl⟩
    | failed fault => rw [alone] at done; contradiction
    | endless => rw [alone] at done; contradiction
  · rintro ⟨book, d, done⟩
    exact ⟨_, d, by rw [composed, done]; rfl⟩
  · intro book d done
    exact ⟨d, by rw [composed, done]; rfl⟩
  · intro fault failed
    refine ⟨fault, by rw [composed, failed]; rfl, rfl, ?_⟩
    have onward : (start text).Onward fault.place := by
      have := forward_book (start text)
      rwa [← readBook, failed] at this
    have shifted := onward.index_append ((Book.mk rules).render.toList ++ ['\n'])
    rw [List.append_assoc] at shifted
    refine shifted.trans ?_
    rw [List.length_append, String.length_toList]
    rfl

/-- Two printed rules before a text with a rule of its own, and before one that breaks off in the
right side of its rule. -/
theorem book_render_composes_two :
    let rules := [Rule.mk (.var "f") (.num 1), Rule.mk (.app (.var "g") (.var "x")) (.var "x")]
    let printed := (Book.mk rules).render
    (∀ rule ∈ rules, rule.Printable) ∧ printed = "f = 1\n(g x) = x" ∧
      (∃ e, (readBook (printed.toList ++ '\n' :: ['h', '=', 'y'])).outcome =
        .done ⟨rules ++ [⟨.var "h", .var "y"⟩]⟩ e) ∧
      ∃ fault, (readBook (printed.toList ++ '\n' :: ['h', '=', ')'])).outcome = .failed fault ∧
        (fault.report (printed.toList ++ '\n' :: ['h', '=', ')'])).expected = "Term" ∧
        (fault.report (printed.toList ++ '\n' :: ['h', '=', ')'])).index =
          printed.length + 1 + 2 := by
  intro rules printed
  have printable : ∀ rule ∈ rules, rule.Printable := by
    intro rule member
    rcases List.mem_pair.mp member with rfl | rfl
    · exact ⟨.var (by decide), .num⟩
    · exact ⟨.app (.var (by decide)) (.var (by decide)), .var (by decide)⟩
  have shape : printed = "f = 1\n(g x) = x" := by
    simp +decide [printed, rules, Book.render, Rule.render, Term.render_eq_plain, Term.plain,
      Term.spine, Term.spineOnto]
  have left (c : Char) :
      (term (start ['h', '=', c])).outcome = .done (.var "h") (start ['=', c]) :=
    (@outcome_term (start ['h', '=', c]) .var rfl).trans rfl
  have more (c : Char) : (start ['h', '=', c]).skipGap.rest ≠ [] := List.cons_ne_nil _ _
  have whole : (readBook ['h', '=', 'y']).outcome = .done ⟨[⟨.var "h", .var "y"⟩]⟩ (start []) := by
    have right : (term (start ['y'])).outcome = .done (.var "y") (start []) :=
      (@outcome_term (start ['y']) .var rfl).trans rfl
    have read : (rule (start ['h', '=', 'y'])).outcome =
        .done (some ⟨.var "h", .var "y"⟩) (start []) :=
      outcome_rule_eq_some.mpr ⟨_, _, left 'y', rfl, right⟩
    exact outcome_book_of_rule (more 'y') read rfl
  have broken : (readBook ['h', '=', ')']).outcome = .failed ⟨"Term", start [')']⟩ := by
    have right : (term (start [')'])).outcome = .failed ⟨"Term", start [')']⟩ := by
      rw [term_apply]
      rfl
    have failed := outcome_rule_of_rhs_failed (left ')') rfl right
    have atRule : (start ['h', '=', ')']).skipGap = start ['h', '=', ')'] := rfl
    rw [readBook, outcome_book (more ')'), atRule, failed]
  have composes := book_render_composes rules printable
  exact ⟨printable, shape, (composes _).2.1 _ _ whole, (composes _).2.2 _ broken⟩

end Termbook
