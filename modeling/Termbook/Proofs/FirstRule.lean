import Termbook.Proofs.Faults
import Termbook.Proofs.Indentation
import Termbook.Proofs.Trace

/-! # A book begins with its first rule

Rules are read by themselves and as parts of books. A text that is not all gap is read as a book
only if a rule stands at its front, and what reading that rule ends with decides how reading the
book goes on: a fault is final, a missing rule is a missing definition, and a rule is the first one
of the book. That no rule stands somewhere is told by the grammar of terms, since faults tell what
they miss: a term is expected only where none begins, so a fault in the middle of a term is never
taken for a missing one, and a definition is expected by the reader of books alone. -/

namespace Termbook

open Termbook.Parser
open Cursor (start ofIndex)

variable {α β : Type} {text : List Char} {c d : Cursor}

/-! ## What faults expect -/

/-- A fault of a reader of terms or rules: it expects no definition, and a term only where none
begins. -/
structure Fault.Fitting (fault : Fault) : Prop where
  /-- Definitions are expected elsewhere. -/
  noDefinition : fault.expected ≠ "definition"
  /-- Where a term is expected the text has no form. -/
  noForm : fault.expected = "Term" → Form.at? (dropGap fault.place.rest) = none

/-- A parser all of whose faults are those of a reader of terms or rules. -/
def Parser.FailsFitting (parser : Parser α) : Prop :=
  ∀ c fault, (parser c).outcome = .failed fault → fault.Fitting

/-- A fault that expects neither a term nor a definition is fitting wherever it is placed. -/
theorem Fault.fitting_of_label {expected : String} (other : expected ∉ ["Term", "definition"])
    (place : Cursor) : Fault.Fitting ⟨expected, place⟩ where
  noDefinition same := other (by simp_all)
  noForm same := absurd (by simp_all) other

/-- A changed outcome is a fault if and only if the outcome is. -/
theorem Outcome.map_eq_failed {change : α → β} {outcome : Outcome α} {fault : Fault} :
    outcome.map change = .failed fault ↔ outcome = .failed fault := by
  cases outcome <;> simp [Outcome.map]

/-- A changed outcome is a value if and only if the outcome is one that changes into it. -/
theorem Outcome.map_eq_done {change : α → β} {outcome : Outcome α} {value : β} :
    outcome.map change = .done value c ↔ ∃ a, outcome = .done a c ∧ change a = value := by
  cases outcome <;> simp [Outcome.map, and_comm]

namespace Parser

/-! ### Tokens -/

theorem failsFitting_pure (value : α) : FailsFitting (pure value : Parser α) := nofun

theorem failsFitting_here : FailsFitting here := nofun

theorem failsFitting_peek : FailsFitting peek := nofun

theorem failsFitting_advance : FailsFitting advance := nofun

theorem failsFitting_exactly (pattern : List Char) : FailsFitting (exactly pattern) := by
  intro c fault failed
  rw [exactly] at failed
  split at failed <;> contradiction

theorem failsFitting_token (pattern : List Char) : FailsFitting (token pattern) :=
  fun c fault failed => absurd failed ((flags_token pattern).outcome_ne_failed c fault)

theorem failsFitting_failAt {expected : String} (other : expected ∉ ["Term", "definition"])
    (place : Cursor) : FailsFitting (failAt expected place : Parser α) := by
  intro c fault failed
  cases failed
  exact Fault.fitting_of_label other place

theorem failsFitting_fail {expected : String} (other : expected ∉ ["Term", "definition"]) :
    FailsFitting (fail expected : Parser α) :=
  fun c => failsFitting_failAt other c.skipGap c

theorem failsFitting_require {pattern : List Char}
    (other : String.ofList pattern ∉ ["Term", "definition"]) : FailsFitting (require pattern) := by
  intro c fault failed
  simp only [require] at failed
  split at failed
  · contradiction
  · cases failed
    exact Fault.fitting_of_label other _

theorem failsFitting_requireName : FailsFitting requireName := by
  intro c fault failed
  simp only [requireName] at failed
  split at failed
  · cases failed
    exact Fault.fitting_of_label (by decide) _
  · contradiction

/-! ### Combinators -/

theorem failsFitting_bind {first : Parser α} {next : α → Parser β} (head : FailsFitting first)
    (tail : ∀ value, FailsFitting (next value)) : FailsFitting (first >>= next) := by
  intro c fault failed
  rcases outcome_bind_eq_failed.mp failed with failed | ⟨value, d, -, failed⟩
  · exact head c fault failed
  · exact tail value d fault failed

theorem failsFitting_map {parser : Parser α} (fitting : FailsFitting parser) (change : α → β) :
    FailsFitting (change <$> parser) :=
  fun c fault failed => fitting c fault (outcome_map_eq_failed.mp failed)

theorem failsFitting_choice {alternatives : List (Parser (Option α))}
    (fitting : ∀ alternative ∈ alternatives, FailsFitting alternative) :
    FailsFitting (choice alternatives) := by
  induction alternatives with
  | nil => exact failsFitting_pure none
  | cons alternative others ih =>
      intro c fault
      have here := fitting alternative List.mem_cons_self c fault
      have there := ih (fun other member => fitting other (List.mem_cons_of_mem _ member)) c fault
      simp only [choice]
      revert here there
      rcases alternative c with ⟨trace, ⟨_ | _, _⟩ | _ | _⟩
      · exact fun _ there => there
      · exact fun here _ => here
      · exact fun here _ => here
      · exact fun here _ => here

theorem failsFitting_grammar {label : String} (other : label ∉ ["Term", "definition"])
    {alternatives : List (Parser (Option α))}
    (fitting : ∀ alternative ∈ alternatives, FailsFitting alternative) :
    FailsFitting (grammar label alternatives) := by
  intro c fault
  have := failsFitting_choice fitting c fault
  rw [grammar]
  revert this
  rcases choice alternatives c with ⟨trace, ⟨_ | _, _⟩ | _ | _⟩
  · rintro - failed
    cases failed
    exact Fault.fitting_of_label other _
  · rintro - failed
    cases failed
  · exact fun inner failed => inner (by simpa using failed)
  · rintro - failed
    cases failed

/-- A repetition fails where its closing is missing at the end of the text, or as its elements
do. -/
theorem failsFitting_manyUntil {pattern : List Char} {element : Parser α}
    (other : String.ofList pattern ∉ ["Term", "definition"]) (takes : TakesText element)
    (fitting : FailsFitting element) : FailsFitting (manyUntil (.token pattern) element) := by
  rw [manyUntil]
  suffices all : ∀ number,
      FailsFitting (manyUntilFrom (.token pattern) (fun _ => element) number) from all 0
  intro number c
  induction size : c.remaining using Nat.strongRecOn generalizing c number with
  | ind size ih =>
      intro fault failed
      rw [manyUntilFrom_apply fun _ => takes] at failed
      rcases outcome_bind_eq_failed.mp failed with failed | ⟨closed, d, open_, failed⟩
      · exact absurd failed ((flags_closes pattern).outcome_ne_failed c fault)
      cases closed with
      | true => contradiction
      | false =>
          cases eq_of_outcome_closes open_
          simp only [Bool.false_eq_true, if_false, readOn] at failed
          split at failed
          · cases failed
            exact Fault.fitting_of_label other _
          · rcases outcome_bind_eq_failed.mp failed with failed | ⟨value, d, done, failed⟩
            · exact fitting c fault failed
            · rcases outcome_bind_eq_failed.mp failed with failed | ⟨_, _, -, failed⟩
              · exact ih _ (size ▸ takes c value d done) _ d rfl fault failed
              · contradiction

end Parser

/-! ### Terms and rules -/

namespace Form

theorem failsFitting_operReader : FailsFitting operReader := by
  refine failsFitting_grammar (by decide) fun alternative member => ?_
  obtain ⟨oper, -, rfl⟩ := List.mem_map.mp member
  refine failsFitting_bind (failsFitting_token _) fun found => ?_
  split
  · exact failsFitting_pure _
  · exact failsFitting_pure _

theorem failsFitting_numBody : FailsFitting numBody := by
  refine failsFitting_bind failsFitting_here fun start =>
    failsFitting_bind failsFitting_requireName fun numeral => ?_
  split
  · exact failsFitting_pure _
  · exact failsFitting_failAt (by decide) _

theorem failsFitting_chrBody : FailsFitting chrBody := by
  refine failsFitting_bind (failsFitting_require (by decide)) fun _ =>
    failsFitting_bind failsFitting_peek fun found => ?_
  split
  · exact failsFitting_bind failsFitting_here fun place => failsFitting_failAt (by decide) place
  · refine failsFitting_bind failsFitting_advance fun _ =>
      failsFitting_bind (failsFitting_exactly _) fun closed => ?_
    dsimp only
    split
    · exact failsFitting_bind failsFitting_here fun place =>
        failsFitting_bind (failsFitting_failAt (by decide) place) fun _ => failsFitting_pure _
    · exact failsFitting_pure _

theorem failsFitting_strBody : FailsFitting strBody := by
  intro c fault failed
  simp only [strBody] at failed
  split at failed
  · cases failed
    exact Fault.fitting_of_label (by decide) _
  · contradiction

end Form

/-- That the faults of a parser are fitting is closed under what bodies do. -/
theorem bodyClosed_failsFitting : BodyClosed FailsFitting where
  pure := failsFitting_pure
  bind := failsFitting_bind
  map change fitting := failsFitting_map fitting change
  manyUntil := failsFitting_manyUntil
  fail := failsFitting_fail
  require := failsFitting_require
  token := failsFitting_token
  requireName := failsFitting_requireName
  operReader := Form.failsFitting_operReader
  numBody := Form.failsFitting_numBody
  chrBody := Form.failsFitting_chrBody
  strBody := Form.failsFitting_strBody

namespace Parser

/-- A term is expected only where the text has no form, and a term expects no definition. -/
theorem failsFitting_term : FailsFitting term := by
  refine term_induction (fun _ reply => ∀ fault, reply.outcome = .failed fault → fault.Fitting)
    (fun c => failsFitting_failAt (by decide) c c) (fun c noForm fault failed => ?_)
    fun form c here subterms => ?_
  · cases failed
    refine ⟨by simp, fun _ => ?_⟩
    rwa [Cursor.rest_skipGap, dropGap_dropGap]
  · have takes := takesText_shortOf c.remaining takesText_term
    exact bodyClosed_failsFitting.body takes subterms form c

/-- The faults of a rule are those of its terms. -/
theorem failsFitting_rule : FailsFitting rule := by
  intro c fault failed
  have parts : FailsFitting ruleParts :=
    failsFitting_bind failsFitting_term fun _ =>
      failsFitting_bind (failsFitting_require (by decide)) fun _ => failsFitting_term
  exact parts c fault (ruleParts_failed failed)

/-! ## Missing rules -/

/-- Going back answers nothing where the parser does, and stays. -/
theorem outcome_maybe_eq_none {parser : Parser (Option α)} :
    (maybe parser c).outcome = .done none d ↔ d = c ∧ ∃ e, (parser c).outcome = .done none e := by
  rw [outcome_maybe]
  rcases (parser c).outcome with ⟨_ | value, e⟩ | _ | _
  · simp [eq_comm]
  · simp
  · simp
  · simp

/-- The alternatives for a term answer nothing where the text has no form. -/
theorem outcome_choice_eq_none :
    (choice (Form.parsers term) c).outcome = .done none d ↔
      d = c ∧ Form.at? (dropGap c.rest) = none := by
  rw [Form.parsers, Form.choice_forms, ← Form.at?]
  cases Form.at? (dropGap c.rest) with
  | none => simp [Reply.done, eq_comm]
  | some form =>
      rw [Reply.outcome_after, outcome_map]
      cases (form.body term c).outcome <;> simp [Outcome.map]

/-- No rule stands where the text has no form, or where no equals sign follows the term there. -/
theorem outcome_rule_eq_none :
    (rule c).outcome = .done none d ↔
      d = c ∧ (Form.at? (dropGap c.rest) = none ∨
        ∃ lhs e, (term c).outcome = .done lhs e ∧ (token ['='] e).outcome = .done false e) := by
  rw [rule, outcome_maybe_eq_none]
  refine and_congr_right fun _ => ?_
  constructor
  · rintro ⟨e, done⟩
    obtain ⟨lhs, e', left, done⟩ := outcome_bind_eq_done.mp done
    cases lhs with
    | none => exact .inl (outcome_choice_eq_none.mp left).2
    | some lhs =>
        obtain ⟨found, e'', equals, done⟩ := outcome_bind_eq_done.mp done
        cases found with
        | false =>
            obtain rfl := (flags_token _).eq_of_not_set equals
            exact .inr ⟨lhs, e'', outcome_choice_eq_some.mp left, equals⟩
        | true =>
            obtain ⟨rhs, _, -, done⟩ := outcome_bind_eq_done.mp done
            cases done
  · rintro (noForm | ⟨lhs, e, left, equals⟩)
    · exact ⟨c, outcome_bind_eq_done.mpr
        ⟨none, c, outcome_choice_eq_none.mpr ⟨rfl, noForm⟩, rfl⟩⟩
    · refine ⟨e, outcome_bind_eq_done.mpr ⟨some lhs, e, outcome_choice_eq_some.mpr left, ?_⟩⟩
      exact outcome_bind_eq_done.mpr ⟨false, e, equals, rfl⟩

/-- A term is expected behind the gap just where the text there has no form. -/
theorem outcome_term_eq_missing :
    (term c).outcome = .failed ⟨"Term", c.skipGap⟩ ↔ Form.at? (dropGap c.rest) = none := by
  constructor
  · intro failed
    have := (failsFitting_term c _ failed).noForm rfl
    rwa [Cursor.rest_skipGap, dropGap_dropGap] at this
  · intro noForm
    rw [term_eq_body, noForm]
    rfl

end Parser

/-! ## The first significant character -/

/-- The place behind the gap at the front of a text is where the text becomes significant. -/
theorem skipGap_start_of_significant {k : Nat} (gap : IsGap (text.take k))
    (significant : Significant (text.drop k)) : (start text).skipGap = ofIndex text k := by
  have within : k < text.length := by
    by_contra beyond
    exact significant.ne_nil (List.drop_eq_nil_of_le (Nat.le_of_not_lt beyond))
  have measured : gapLength text = k := by
    have := gap.gapLength_append (text.drop k)
    rwa [List.take_append_drop, significant.gapLength_eq_zero, Nat.add_zero,
      List.length_take_of_le (Nat.le_of_lt within)] at this
  rw [Cursor.skipGap, Cursor.rest_start, measured]
  refine (Cursor.advance_ofIndex text 0 k).trans ?_
  rw [Nat.sub_zero, Nat.min_eq_left (Nat.le_of_lt within), Nat.zero_add]

/-- A text that is not all gap has a first significant character. -/
theorem exists_significant_of_dropGap_ne_nil (left : dropGap text ≠ []) :
    ∃ k, IsGap (text.take k) ∧ Significant (text.drop k) := by
  have significant := significant_dropGap left
  obtain ⟨gap, isGap, split⟩ := after_dropGap significant
  refine ⟨gapLength text, ?_, significant⟩
  have same : text.take (gapLength text) = gap :=
    List.append_cancel_right ((List.take_append_drop _ text).trans split)
  rw [same]
  exact isGap

/-! ## Entry points -/

/-- An outcome of reading a text that is reported as a fault with a label and an index. -/
def Outcome.FailsAt (text : List Char) (expected : String) (index : Nat) (outcome : Outcome α) :
    Prop :=
  ∃ fault, outcome = .failed fault ∧ (fault.report text).expected = expected ∧
    (fault.report text).index = index

/-- A fault at an index of a text is reported there. -/
theorem failsAt_ofIndex {outcome : Outcome α} {expected : String} {k : Nat}
    (failed : outcome = .failed ⟨expected, ofIndex text k⟩) : outcome.FailsAt text expected k :=
  ⟨_, failed, rfl, Cursor.index_ofIndex text k⟩

/-- A fault that is placed onward from the start of a text is told by its label and its index. -/
theorem Outcome.FailsAt.eq_failed {outcome : Outcome α} {expected : String} {k : Nat}
    (fails : outcome.FailsAt text expected k) (onward : outcome.Onward (start text)) :
    outcome = .failed ⟨expected, ofIndex text k⟩ := by
  obtain ⟨fault, rfl, rfl, rfl⟩ := fails
  have place : fault.place = ofIndex text (fault.report text).index :=
    Cursor.Onward.exists_ofIndex onward
  rw [← place]
  rfl

section Significant

variable {k : Nat} (gap : IsGap (text.take k)) (significant : Significant (text.drop k))
include gap significant

/-- Where a text has become significant, it is not all gap. -/
theorem rest_skipGap_ne_nil : (start text).skipGap.rest ≠ [] := by
  rw [skipGap_start_of_significant gap significant]
  exact significant.ne_nil

/-- If reading the rule at the front of a text fails, so does reading the text as a book. -/
theorem readBook_of_readRule_failed {fault : Fault}
    (failed : (readRule text).outcome = .failed fault) :
    (readBook text).outcome = .failed fault := by
  rw [readBook, outcome_book (rest_skipGap_ne_nil gap significant)]
  rcases answersAlike_rule (start text) with ⟨here, -⟩ | ⟨read, d, here, -⟩ | ⟨fault', here, there⟩
  · cases here.symm.trans failed
  · cases here.symm.trans failed
  -- the rule fails alike behind the gap, where the book reads it
  · cases here.symm.trans failed
    rw [there]

/-- No rule stands at the front of a text if and only if a definition is missing there. -/
theorem readRule_eq_none_iff_definition :
    (∃ next, (readRule text).outcome = .done none next) ↔
      (readBook text).outcome.FailsAt text "definition" k := by
  have place := skipGap_start_of_significant gap significant
  have whole := outcome_book (rest_skipGap_ne_nil gap significant)
  constructor
  · rintro ⟨next, done⟩
    rcases answersAlike_rule (start text) with ⟨-, there⟩ | ⟨read, d, here, -⟩ | ⟨fault, here, -⟩
    · rw [there, place] at whole
      exact failsAt_ofIndex whole
    · cases here.symm.trans done
    · cases here.symm.trans done
  · intro fails
    have failed := fails.eq_failed (forward_book (start text))
    rw [readBook, whole, ← place] at failed
    rcases answersAlike_rule (start text) with ⟨here, -⟩ | ⟨read, d, -, there⟩ | ⟨fault, -, there⟩
    · exact ⟨start text, here⟩
    · -- the fault would lie behind a rule that has been read
      rw [there] at failed
      have onward : (rules 1 d).outcome.Onward d :=
        forward_manyUntilFrom forward_atEnd forward_numberedRule 1 d
      have less := remaining_lt_of_rule there
      rw [Outcome.map_eq_failed.mp failed] at onward
      exact absurd onward.remaining_le (Nat.not_le_of_lt less)
    · -- no reader of rules expects a definition
      rw [there] at failed
      cases failed
      exact absurd rfl (failsFitting_rule _ _ there).noDefinition

/-- A book that is read begins with the rule that is read at the front of its text. -/
theorem exists_first_rule_of_readBook {book : Book} {next : Cursor}
    (done : (readBook text).outcome = .done book next) :
    ∃ first others d, book.rules = first :: others ∧
      (readRule text).outcome = .done (some first) d := by
  rw [readBook, outcome_book (rest_skipGap_ne_nil gap significant)] at done
  rcases answersAlike_rule (start text) with ⟨-, there⟩ | ⟨read, d, here, there⟩ | ⟨fault, -, there⟩
  · rw [there] at done
    contradiction
  · rw [there] at done
    obtain ⟨others, -, rfl⟩ := Outcome.map_eq_done.mp done
    exact ⟨read, others, d, rfl, here⟩
  · rw [there] at done
    contradiction

/-- A term is missing at the first significant character if and only if the text has no form. -/
theorem readTerm_failsAt_iff :
    (readTerm text).outcome.FailsAt text "Term" k ↔ Form.at? (dropGap text) = none := by
  have missing : (readTerm text).outcome = .failed ⟨"Term", ofIndex text k⟩ ↔
      Form.at? (dropGap text) = none := by
    rw [← skipGap_start_of_significant gap significant]
    exact outcome_term_eq_missing
  exact ⟨fun fails => missing.mp (fails.eq_failed (forward_term (start text))),
    fun noForm => failsAt_ofIndex (missing.mpr noForm)⟩

/-- No rule stands at the front of a text if and only if a term is missing there, or no equals sign
follows the term. -/
theorem readRule_eq_none_iff_term :
    (∃ next, (readRule text).outcome = .done none next) ↔
      (readTerm text).outcome.FailsAt text "Term" k ∨
        ∃ read next, (readTerm text).outcome = .done read next ∧
          ∀ rest, ¬ After next.rest ('=' :: rest) := by
  rw [readTerm_failsAt_iff gap significant]
  constructor
  · rintro ⟨next, done⟩
    obtain ⟨-, noForm | ⟨lhs, e, left, equals⟩⟩ := outcome_rule_eq_none.mp done
    · exact .inl noForm
    · obtain ⟨rest, rfl, -⟩ := exists_derives_of_done left
      exact .inr ⟨lhs, _, left, ((outcome_tokenChar_start rfl).mp equals).1⟩
  · rintro (noForm | ⟨lhs, e, left, absent⟩)
    · exact ⟨_, outcome_rule_eq_none.mpr ⟨rfl, .inl noForm⟩⟩
    · obtain ⟨rest, rfl, -⟩ := exists_derives_of_done left
      have equals := outcome_tokenChar_of_not_after rfl absent
      exact ⟨_, outcome_rule_eq_none.mpr ⟨rfl, .inr ⟨lhs, _, left, equals⟩⟩⟩

end Significant

/-- The readers of terms, rules and books agree on the front of a text. Let `k` be the index of its
first significant character. A fault of the rule there is the fault of the book; the rule is missing
if and only if a definition is expected at `k`; a book that is read begins with that rule; and the
rule is missing if and only if a term is expected at `k`, or a term is read and no equals sign
follows it. A text without a significant character is the empty book, and no rule stands in it. -/
theorem book_begins_with_rule (text : List Char) :
    (∀ k, IsGap (text.take k) → Significant (text.drop k) →
      (∀ fault, (readRule text).outcome = .failed fault →
        (readBook text).outcome = .failed fault) ∧
      ((∃ next, (readRule text).outcome = .done none next) ↔
        (readBook text).outcome.FailsAt text "definition" k) ∧
      (∀ book next, (readBook text).outcome = .done book next →
        ∃ first others d, book.rules = first :: others ∧
          (readRule text).outcome = .done (some first) d) ∧
      ((∃ next, (readRule text).outcome = .done none next) ↔
        (readTerm text).outcome.FailsAt text "Term" k ∨
          ∃ read next, (readTerm text).outcome = .done read next ∧
            ∀ rest, ¬ After next.rest ('=' :: rest))) ∧
    ((¬∃ k, IsGap (text.take k) ∧ Significant (text.drop k)) →
      (∃ next, (readBook text).outcome = .done ⟨[]⟩ next) ∧
        ∃ next, (readRule text).outcome = .done none next) := by
  refine ⟨fun k gap significant => ⟨fun fault => readBook_of_readRule_failed gap significant,
    readRule_eq_none_iff_definition gap significant,
    fun book next => exists_first_rule_of_readBook gap significant,
    readRule_eq_none_iff_term gap significant⟩, fun insignificant => ?_⟩
  have allGap : dropGap text = [] := by
    by_contra left
    exact insignificant (exists_significant_of_dropGap_ne_nil left)
  constructor
  · have ended : (start text).skipGap.rest = [] := allGap
    refine ⟨(start text).skipGap, ?_⟩
    rw [readBook, book, outcome_map, outcome_rules, if_pos ended]
    rfl
  · refine ⟨start text, outcome_rule_eq_none.mpr ⟨rfl, .inl ?_⟩⟩
    rw [Cursor.rest_start, allGap]
    rfl

/-- Behind a space: a rule whose right side is missing, a rule, and a term without a rule. And a
comment without anything behind it. -/
theorem book_begins_with_rule_spaced :
    (IsGap ([' ', 'x', '=', ')'].take 1) ∧ Significant ([' ', 'x', '=', ')'].drop 1) ∧
      (readRule [' ', 'x', '=', ')']).outcome = .failed ⟨"Term", start [')']⟩ ∧
      (readBook [' ', 'x', '=', ')']).outcome = .failed ⟨"Term", start [')']⟩) ∧
    (IsGap ([' ', 'x', '=', 'y'].take 1) ∧ Significant ([' ', 'x', '=', 'y'].drop 1) ∧
      (readBook [' ', 'x', '=', 'y']).outcome = .done ⟨[⟨.var "x", .var "y"⟩]⟩ (start []) ∧
      ∃ first others d, [⟨.var "x", .var "y"⟩] = first :: others ∧
        (readRule [' ', 'x', '=', 'y']).outcome = .done (some first) d) ∧
    (IsGap ([' ', 'x'].take 1) ∧ Significant ([' ', 'x'].drop 1) ∧
      (∃ next, (readRule [' ', 'x']).outcome = .done none next) ∧
      (readBook [' ', 'x']).outcome.FailsAt [' ', 'x'] "definition" 1) ∧
    (¬∃ k, IsGap (['/', '/'].take k) ∧ Significant (['/', '/'].drop k)) ∧
      ∃ next, (readBook ['/', '/']).outcome = .done ⟨[]⟩ next := by
  have space : IsGap [' '] := .blank isBlank_space .nil
  have name (rest : List Char) : Significant ('x' :: rest) := significant_cons rfl
  have failed : (readRule [' ', 'x', '=', ')']).outcome = .failed ⟨"Term", start [')']⟩ := by
    have left : (term (start [' ', 'x', '=', ')'])).outcome = .done (.var "x") (start ['=', ')']) :=
      (@outcome_term (start [' ', 'x', '=', ')']) .var rfl).trans rfl
    have right : (term (start [')'])).outcome = .failed ⟨"Term", start [')']⟩ :=
      outcome_term_eq_missing.mpr rfl
    exact outcome_rule_of_rhs_failed left rfl right
  have done : (readBook [' ', 'x', '=', 'y']).outcome =
      .done ⟨[⟨.var "x", .var "y"⟩]⟩ (start []) := by
    have left : (term (start ['x', '=', 'y'])).outcome = .done (.var "x") (start ['=', 'y']) :=
      (@outcome_term (start ['x', '=', 'y']) .var rfl).trans rfl
    have right : (term (start ['y'])).outcome = .done (.var "y") (start []) :=
      (@outcome_term (start ['y']) .var rfl).trans rfl
    have read : (rule (start ['x', '=', 'y'])).outcome =
        .done (some ⟨.var "x", .var "y"⟩) (start []) :=
      outcome_rule_eq_some.mpr ⟨_, _, left, rfl, right⟩
    have more : (start [' ', 'x', '=', 'y']).skipGap.rest ≠ [] := List.cons_ne_nil _ _
    exact outcome_book_of_rule more read rfl
  have missing : ∃ next, (readRule [' ', 'x']).outcome = .done none next := by
    have left : (term (start [' ', 'x'])).outcome = .done (.var "x") (start []) :=
      (@outcome_term (start [' ', 'x']) .var rfl).trans rfl
    exact ⟨_, outcome_rule_eq_none.mpr ⟨rfl, .inr ⟨_, _, left, rfl⟩⟩⟩
  have comment : ¬∃ k, IsGap (['/', '/'].take k) ∧ Significant (['/', '/'].drop k) := by
    rintro ⟨_, gap, significant⟩
    exact rest_skipGap_ne_nil gap significant rfl
  have first := (book_begins_with_rule [' ', 'x', '=', ')']).1 1 space (name _)
  have second := (book_begins_with_rule [' ', 'x', '=', 'y']).1 1 space (name _)
  have third := (book_begins_with_rule [' ', 'x']).1 1 space (name _)
  exact ⟨⟨space, name _, failed, first.1 _ failed⟩, ⟨space, name _, done, second.2.2.1 _ _ done⟩,
    ⟨space, name _, missing, third.2.1.mp missing⟩, comment,
    ((book_begins_with_rule ['/', '/']).2 comment).1⟩

end Termbook
