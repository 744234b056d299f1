import Termbook.Proofs.Books
import Termbook.Proofs.Completion

/-! # Faults are told where the text goes wrong

A fault is never told beyond the place where a text goes wrong: what stands before it is the front
of some text that is read without a fault. For terms this is shown form by form, by induction on how
much is left; for books it goes from rule to rule, and the rules before the fault stay read. -/

namespace Termbook

open Termbook.Parser
open Cursor (start)

variable {text rest left : List Char}

/-! ## Rows in brackets -/

/-- Terms in a row and the bracket after them. -/
def TermsAt : Reads := fun text rest =>
  ∃ terms mid, Derives text (.terms terms) mid ∧ After mid (')' :: rest)

/-- An item of a list, with the comma that may follow it. -/
def ItemAt : Reads := fun text rest =>
  ∃ item mid, Derives text (.term item) mid ∧ (rest = mid ∨ After mid (',' :: rest))

/-- The items of a list and the bracket after them. -/
def ItemsAt : Reads := fun text rest =>
  ∃ items mid, Derives text (.items items) mid ∧ After mid (']' :: rest)

instance : Fillable TermsAt :=
  ⟨[')'], fun text _ after => ⟨[], text, .noTerms, after⟩⟩

instance : Fillable ItemsAt :=
  ⟨[']'], fun text _ after => ⟨[], text, .noItems, after⟩⟩

namespace Form

/-- The parser of terms completes terms from every text that is shorter. -/
def CompletesBelow (text : List Char) : Prop :=
  ∀ text' : List Char, text'.length < text.length → Completes Parser.term TermAt text'

variable {inner : List Char}

theorem completes_terms (below : CompletesBelow text) (shorter : inner.length < text.length) :
    Completes (manyUntil (.token [')']) Parser.term) TermsAt inner := by
  refine completes_manyUntilFrom (flags_closes _).outcome_ne_failed (fun _ => takesText_term) ?_
    (fun _ text' le => below text' (by omega)) (fun _ _ => resumes_term) 0
  rintro text rest ⟨_, ⟨_, first⟩, _, _, others, closed⟩
  exact ⟨_, _, .moreTerms first others, closed⟩

/-- Only the term of an item can fail, since the comma after it may be missing. -/
theorem completes_lstItem (completes : Completes Parser.term TermAt text) :
    Completes (lstItem Parser.term) ItemAt text := by
  intro fault failed
  rcases outcome_bind_eq_failed.mp failed with failed | ⟨item, d, -, failed⟩
  · refine completes.imp ?_ fault failed
    rintro text rest ⟨item, first⟩
    exact ⟨item, rest, first, .inl rfl⟩
  · rcases outcome_bind_eq_failed.mp failed with failed | ⟨_, _, -, failed⟩
    · exact absurd failed ((flags_token _).outcome_ne_failed d fault)
    · contradiction

theorem resumes_lstItem : Resumes (lstItem Parser.term) ItemAt text := by
  intro item d done
  obtain ⟨_, e, read, done⟩ := outcome_bind_eq_done.mp done
  obtain ⟨comma, e', readComma, done⟩ := outcome_bind_eq_done.mp done
  cases done
  obtain ⟨mid, rfl, first⟩ := exists_derives_of_done read
  rw [outcome_tokenChar_start rfl] at readComma
  cases comma with
  | true =>
      obtain ⟨rest, comma, rfl⟩ := readComma
      refine ⟨rest, rfl, Portable.resumable ?_ (Nat.lt_trans comma.length_lt first.length_lt)⟩
      refine (first.portable.comp (portable_stands [','] comma)).imp ?_
      rintro text rest ⟨mid, first, comma⟩
      exact ⟨item, mid, first, .inr comma⟩
  | false =>
      obtain ⟨-, rfl⟩ := readComma
      refine ⟨mid, rfl, Portable.resumable ?_ first.length_lt⟩
      exact first.portable.imp fun text rest first => ⟨item, rest, first, .inl rfl⟩

theorem completes_items (below : CompletesBelow text) (shorter : inner.length < text.length) :
    Completes (manyUntil (.token [']']) (lstItem Parser.term)) ItemsAt inner := by
  refine completes_manyUntilFrom (flags_closes _).outcome_ne_failed
    (fun _ => takesText_lstItem takesText_term) ?_
    (fun _ text' le => completes_lstItem (below text' (by omega))) (fun _ _ => resumes_lstItem) 0
  rintro text rest ⟨_, ⟨_, _, first, plain | comma⟩, _, _, others, closed⟩
  · cases plain
    exact ⟨_, _, .moreItems first others, closed⟩
  · exact ⟨_, _, .commaItems first comma others, closed⟩

/-! ## Bodies -/

/-- The parts of a local definition. -/
abbrev LetAt : Reads :=
  Relation.Comp (Stands letMark) <| Relation.Comp BinderAt <|
    Relation.Comp (Stands ['=']) <| Relation.Comp TermAt <| Relation.Comp (Stands [';']) TermAt

/-- The parts of a duplication. -/
abbrev DupAt : Reads :=
  Relation.Comp (Stands dupMark) <| Relation.Comp BinderAt <|
    Relation.Comp BinderAt <| Relation.Comp (Stands ['=']) <|
    Relation.Comp TermAt <| Relation.Comp (Stands [';']) TermAt

/-- The parts of a binary operation. -/
abbrev Op2At : Reads :=
  Relation.Comp (Stands ['(']) <| Relation.Comp SymbolAt <| Relation.Comp TermAt <|
    Relation.Comp TermAt (Stands [')'])

theorem completes_letBody (below : CompletesBelow text) :
    Completes (letBody Parser.term) TermAt text := by
  have parts : Completes (letBody Parser.term) LetAt text := by
    refine completes_require_bind significant_letMark fun s₁ _ => ?_
    refine completes_requireName_bind (fun _ _ _ => trivial) fun name s₂ _ => ?_
    refine completes_require_bind (significant_singleton rfl) fun s₃ _ => ?_
    refine completes_term_bind (below s₃ (by omega)) fun expr s₄ _ => ?_
    refine completes_require_bind (significant_singleton rfl) fun s₅ _ => ?_
    exact completes_bind_pure (below s₅ (by omega)) (Term.letIn name expr)
  refine parts.imp ?_
  rintro text rest
    ⟨_, mark, _, ⟨_, -, binder⟩, _, equals, _, ⟨_, value⟩, _, semicolon, ⟨_, scope⟩⟩
  exact ⟨_, .letIn mark binder equals value semicolon scope⟩

theorem completes_dupBody (below : CompletesBelow text) :
    Completes (dupBody Parser.term) TermAt text := by
  have parts : Completes (dupBody Parser.term) DupAt text := by
    refine completes_require_bind significant_dupMark fun s₁ _ => ?_
    refine completes_requireName_bind (fun _ _ _ => trivial) fun first s₂ _ => ?_
    refine completes_requireName_bind (fun _ _ _ => trivial) fun second s₃ _ => ?_
    refine completes_require_bind (significant_singleton rfl) fun s₄ _ => ?_
    refine completes_term_bind (below s₄ (by omega)) fun expr s₅ _ => ?_
    refine completes_require_bind (significant_singleton rfl) fun s₆ _ => ?_
    exact completes_bind_pure (below s₆ (by omega)) (Term.dup first second expr)
  refine parts.imp ?_
  rintro text rest ⟨_, mark, _, ⟨_, -, binder⟩, _, ⟨_, -, binder'⟩, _, equals, _, ⟨_, value⟩, _,
    semicolon, ⟨_, scope⟩⟩
  exact ⟨_, .dup mark binder binder' equals value semicolon scope⟩

theorem completes_op2Body (below : CompletesBelow text) :
    Completes (op2Body Parser.term) TermAt text := by
  have parts : Completes (op2Body Parser.term) Op2At text := by
    refine completes_require_bind (significant_singleton rfl) fun s₁ _ => ?_
    refine completes_operReader_bind fun oper s₂ _ => ?_
    refine completes_term_bind (below s₂ (by omega)) fun first s₃ _ => ?_
    refine completes_term_bind (below s₃ (by omega)) fun second s₄ _ => ?_
    exact completes_bind_pure (completes_require _) fun _ => Term.op2 oper first second
  refine parts.imp ?_
  rintro text rest ⟨_, opened, _, ⟨_, symbol⟩, _, ⟨_, first⟩, _, ⟨_, second⟩, closed⟩
  exact ⟨_, .op2 opened symbol first second closed⟩

theorem completes_lamBody (below : CompletesBelow text) :
    Completes (lamBody Parser.term) TermAt text := by
  intro fault failed
  rcases outcome_bind_eq_failed.mp failed with failed | ⟨found, d, marked, failed⟩
  · exact absurd failed (flags_lamHead.outcome_ne_failed _ fault)
  · cases found with
    | false =>
        cases flags_lamHead.eq_of_not_set marked
        cases failed
        exact exists_completable_of_gap rfl
    | true =>
        obtain ⟨mark, s₁, isMark, opened, rfl⟩ := outcome_lamHead_start marked rfl
        have shorter := opened.length_lt
        have scope : Completes (do
            let name ← requireName
            return Term.lam name (← Parser.term)) (Relation.Comp BinderAt TermAt) s₁ :=
          completes_requireName_bind (fun _ _ _ => trivial) fun name s₂ _ =>
            completes_bind_pure (below s₂ (by omega)) (Term.lam name)
        obtain ⟨left, place, completable⟩ :=
          scope.resume (resumable_stands [mark] nofun opened) failed
        refine ⟨left, place, completable.imp ?_⟩
        rintro text rest ⟨_, marked, _, ⟨_, -, binder⟩, ⟨_, scope⟩⟩
        exact ⟨_, .lam isMark marked binder scope⟩

/-- With brackets or without, the name after the opening starts with a capital letter. -/
theorem completes_ctrBody (below : CompletesBelow text)
    (capital : headIs Char.isUpper (dropBracket (dropGap text)) = true) :
    Completes (ctrBody Parser.term) TermAt text := by
  intro fault failed
  rcases outcome_bind_eq_failed.mp failed with failed | ⟨opened, d, bracket, failed⟩
  · exact absurd failed ((flags_token _).outcome_ne_failed _ fault)
  · rw [outcome_tokenChar_start rfl] at bracket
    cases opened with
    | false =>
        obtain ⟨-, rfl⟩ := bracket
        have bare : Completes (do return Term.ctr (← requireName) []) TermAt text :=
          completes_bind_pure completes_requireName (Term.ctr · [])
        exact bare fault failed
    | true =>
        obtain ⟨s₁, opened, rfl⟩ := bracket
        have shorter := opened.length_lt
        have arguments : Completes (do
            let name ← requireName
            return Term.ctr name (← manyUntil (.token [')']) Parser.term))
              (Relation.Comp (NameAt IsCapital) TermsAt) s₁ :=
          completes_requireName_bind (fun _ _ named => capital_of_bracket capital opened named)
            fun name s₂ _ => completes_bind_pure (completes_terms below (by omega)) (Term.ctr name)
        obtain ⟨left, place, completable⟩ :=
          arguments.resume (resumable_stands ['('] nofun opened) failed
        refine ⟨left, place, completable.imp ?_⟩
        rintro text rest ⟨_, opened, _, ⟨_, capital, named⟩, _, _, inner, closed⟩
        exact ⟨_, .ctr opened named capital inner closed⟩

/-- If nothing of the arguments has been read, the brackets are completed without any. -/
theorem completes_appBody (below : CompletesBelow text) (here : at? (dropGap text) = some app) :
    Completes (appBody Parser.term) TermAt text := by
  intro fault failed
  rw [appBody, outcome_map_eq_failed] at failed
  rcases outcome_bind_eq_failed.mp failed with failed | ⟨_, d, required, failed⟩
  · exact completes_require _ fault failed
  · obtain ⟨s₁, opened, rfl⟩ := (outcome_require_start (significant_singleton rfl)).mp required
    have arguments := startsArguments_of_at? here opened
    have shorter : s₁.length < text.length := opened.length_lt
    obtain ⟨left, place, completable⟩ := completes_terms below shorter fault failed
    have bracket := resumable_stands ['('] nofun opened
    have within := (ignoresGap_manyUntilFrom (fun _ => takesText_term) (fun _ => ignoresGap_term)
      0).suffix_of_failed (forward_manyUntil (forward_token _) forward_term) failed place
    -- the fault lies after the gap behind the bracket, either right there or further on
    rcases Nat.eq_or_lt_of_le within.length_le with same | reaches
    · obtain rfl := within.eq_of_length same
      refine ⟨_, place, (bracket.completable (completable_dropGap (P := Stands [')']) s₁)).imp ?_⟩
      rintro text rest ⟨_, opened, closed⟩
      exact ⟨_, .unit opened closed⟩
    · have completable := completable.startsArguments arguments reaches
      refine ⟨_, place, (bracket.completable completable).imp ?_⟩
      rintro text rest ⟨_, opened, arguments, terms, _, inner, closed⟩
      cases terms with
      | nil =>
          cases inner
          exact ⟨_, .unit opened closed⟩
      | cons func args => exact ⟨_, .app opened arguments inner closed⟩

/-- A numeral is refused as a whole. -/
theorem completes_numBody : Completes numBody TermAt text := by
  refine completes_of_gap fun fault failed => ?_
  rcases outcome_bind_eq_failed.mp failed with failed | ⟨place, d, here, failed⟩
  · contradiction
  · cases here
    rcases outcome_bind_eq_failed.mp failed with failed | ⟨numeral, e, -, failed⟩
    · exact place_of_requireName_failed failed
    · cases read : readNumeral? numeral.toList with
      | some value =>
          rw [read] at failed
          contradiction
      | none =>
          rw [read] at failed
          cases failed
          rfl

/-- A character and the quote after it, right here. -/
def QuotedAt : Reads := fun text rest =>
  ∃ c, text = c :: '\'' :: rest

/-- Any character may be quoted, the newline too that is written where none is left. -/
theorem completes_chrBody : Completes chrBody TermAt text := by
  intro fault failed
  rcases outcome_bind_eq_failed.mp failed with failed | ⟨_, d, required, failed⟩
  · exact completes_require _ fault failed
  · obtain ⟨s₁, opened, rfl⟩ := (outcome_require_start (significant_singleton rfl)).mp required
    have quote := resumable_stands ['\''] nofun opened
    have completable : ∃ left, fault.place = start left ∧ Completable QuotedAt s₁ left := by
      rcases outcome_bind_eq_failed.mp failed with failed | ⟨found, d, peeked, failed⟩
      · contradiction
      cases peeked
      cases s₁ with
      | nil =>
          cases failed
          exact ⟨[], rfl, [], ['\n', '\''], rfl, fun tail => ⟨.inr rfl, '\n', rfl⟩⟩
      | cons c s₂ =>
          rcases outcome_bind_eq_failed.mp failed with failed | ⟨_, d, advanced, failed⟩
          · contradiction
          cases advanced
          have unclosed : fault.place = start s₂ := by
            rcases outcome_bind_eq_failed.mp failed with failed | ⟨closed, d, closing, failed⟩
            · rw [Cursor.advance_start, exactly_start] at failed
              split at failed <;> contradiction
            rw [Cursor.advance_start, exactly_start] at closing
            split at closing
            · cases closing
              contradiction
            · cases closing
              cases failed
              rfl
          exact ⟨s₂, unclosed, [c], ['\''], rfl, fun tail => ⟨.inl rfl, c, rfl⟩⟩
    obtain ⟨left, place, completable⟩ := completable
    refine ⟨left, place, (quote.completable completable).imp ?_⟩
    rintro text rest ⟨_, opened, c, rfl⟩
    exact ⟨_, .chr opened⟩

theorem completes_strBody : Completes strBody TermAt text := by
  refine completes_of_gap fun fault failed => ?_
  simp only [strBody] at failed
  split at failed
  · cases failed
    rfl
  · contradiction

theorem completes_lstBody (below : CompletesBelow text) :
    Completes (lstBody Parser.term) TermAt text := by
  have parts : Completes (lstBody Parser.term) (Relation.Comp (Stands ['[']) ItemsAt) text :=
    completes_map (completes_require_bind (significant_singleton rfl) fun s₁ shorter =>
      completes_items below shorter) Term.ofList
  refine parts.imp ?_
  rintro text rest ⟨_, opened, _, _, inner, closed⟩
  exact ⟨_, .lst opened inner closed⟩

/-- Every body completes the term whose form the text has. -/
theorem completes_body (below : CompletesBelow text) {form : Form}
    (here : at? (dropGap text) = some form) : Completes (form.body Parser.term) TermAt text := by
  cases form with
  | letIn => exact completes_letBody below
  | dup => exact completes_dupBody below
  | lam => exact completes_lamBody below
  | ctr => exact completes_ctrBody below (opens_of_at? here)
  | op2 => exact completes_op2Body below
  | app => exact completes_appBody below here
  | num => exact completes_numBody
  | chr => exact completes_chrBody
  | str => exact completes_strBody
  | lst => exact completes_lstBody below
  | var => exact completes_map completes_requireName _

end Form

/-! ## Terms -/

/-- Wherever the parser of terms fails, a term can be completed. -/
theorem completes_term (text : List Char) : Completes term TermAt text := by
  induction size : text.length using Nat.strongRecOn generalizing text with
  | ind size ih =>
      have below : Form.CompletesBelow text := fun text' shorter => ih _ (size ▸ shorter) text' rfl
      intro fault failed
      rw [term_eq_body, Cursor.rest_start] at failed
      split at failed
      · next form here => exact Form.completes_body below here fault failed
      · cases failed
        exact exists_completable_of_gap rfl

/-! ## Rules -/

/-- The parts of a rule. -/
abbrev RuleAt : Reads :=
  Relation.Comp TermAt <| Relation.Comp (Stands ['=']) TermAt

/-- Rules in a row, and a gap after them. -/
def RulesAt : Reads := fun text rest =>
  ∃ mid, Relation.ReflTransGen RuleAt text mid ∧ After mid rest

instance : Fillable RulesAt :=
  ⟨[], fun text _ after => ⟨text, .refl, after⟩⟩

namespace Parser

variable {c : Cursor} {fault : Fault} {number : Nat}

/-- Read the parts of a rule, each of which has to be there. -/
def ruleParts : Parser Term := do
  let _ ← term
  require ['=']
  term

/-- A rule fails where one of its parts does. -/
theorem ruleParts_failed (failed : (rule c).outcome = .failed fault) :
    (ruleParts c).outcome = .failed fault := by
  rw [rule, outcome_maybe_eq_failed] at failed
  rcases outcome_bind_eq_failed.mp failed with failed | ⟨lhs, d, left, failed⟩
  · exact outcome_bind_eq_failed.mpr (.inl (outcome_term_of_choice_failed failed))
  cases lhs with
  | none => contradiction
  | some lhs =>
      refine outcome_bind_eq_failed.mpr (.inr ⟨lhs, d, outcome_choice_eq_some.mp left, ?_⟩)
      rcases outcome_bind_eq_failed.mp failed with failed | ⟨found, e, equals, failed⟩
      · exact absurd failed ((flags_token _).outcome_ne_failed d fault)
      cases found with
      | false => contradiction
      | true =>
          refine outcome_bind_eq_failed.mpr (.inr ⟨(), e, outcome_require_eq_done.mpr equals, ?_⟩)
          rcases outcome_bind_eq_failed.mp failed with failed | ⟨_, _, -, failed⟩
          · exact failed
          · contradiction

/-- A rule of a book fails where no rule stands, or where one of its parts fails. -/
theorem numberedRule_failed (failed : (numberedRule number c).outcome = .failed fault) :
    fault.place = c.skipGap ∨ (ruleParts c.skipGap).outcome = .failed fault := by
  rcases outcome_bind_eq_failed.mp failed with failed | ⟨moved, d, atGap, failed⟩
  · contradiction
  cases atGap
  rcases outcome_bind_eq_failed.mp failed with failed | ⟨place, d, atPlace, failed⟩
  · contradiction
  cases atPlace
  rcases outcome_bind_eq_failed.mp failed with failed | ⟨read, d, -, failed⟩
  · exact .inr (ruleParts_failed failed)
  · cases read with
    | none =>
        cases failed
        exact .inl rfl
    | some read =>
        rcases outcome_bind_eq_failed.mp failed with failed | ⟨_, _, -, failed⟩
        · contradiction
        · contradiction

/-- From a gap on, rules are completed as they are read. -/
theorem completes_numberedRule : Completes (numberedRule number) RuleAt text := by
  intro fault failed
  rcases numberedRule_failed failed with place | failed
  · exact exists_completable_of_gap place
  · have parts : Completes ruleParts RuleAt text :=
      completes_term_bind (completes_term text) fun _ s₁ _ =>
        completes_require_bind (significant_singleton rfl) fun s₂ _ => completes_term s₂
    rw [ruleParts, ignoresGap_bind ignoresGap_term] at failed
    exact parts fault failed

theorem resumes_numberedRule : Resumes (numberedRule number) RuleAt text := by
  intro read d done
  obtain ⟨e, e', left, found, right⟩ :=
    outcome_rule_eq_some.mp (outcome_numberedRule_eq_done.mp done)
  rw [ignoresGap_term] at left
  obtain ⟨s₁, rfl, lhs⟩ := exists_derives_of_done left
  rw [outcome_tokenChar_start rfl, if_pos rfl] at found
  obtain ⟨s₂, equals, rfl⟩ := found
  obtain ⟨rest, rfl, rhs⟩ := exists_derives_of_done right
  have takes := Nat.lt_trans rhs.length_lt (Nat.lt_trans equals.length_lt lhs.length_lt)
  refine ⟨rest, rfl, Portable.resumable ?_ takes⟩
  refine (lhs.portable.comp <| (portable_stands ['='] equals).comp rhs.portable).imp ?_
  rintro text rest ⟨_, lhs, _, equals, rhs⟩
  exact ⟨_, ⟨_, lhs⟩, _, equals, ⟨_, rhs⟩⟩

end Parser

/-! ## Books -/

/-- Wherever the parser of books fails, the rules can be completed. -/
theorem completes_book (text : List Char) : Completes book RulesAt text := by
  refine completes_map (completes_manyUntilFrom ?_ takesText_numberedRule ?_
    (fun _ _ _ => completes_numberedRule) (fun _ _ => resumes_numberedRule) 0) Book.mk
  · intro c fault
    simp only [closes, Closing.ofParser, atEnd, Reply.done]
    cases c.skipGap.rest.isEmpty <;> simp
  · rintro text rest ⟨_, first, _, others, ended⟩
    exact ⟨_, .head first others, ended⟩

/-- Rules in a row up to the end of a text are read. -/
theorem RulesAt.exists_rules (rules : RulesAt text rest) (ended : dropGap rest = [])
    (number : Nat) : ∃ read d, (Parser.rules number (start text)).outcome = .done read d := by
  obtain ⟨mid, rules, gap, isGap, rfl⟩ := rules
  induction rules using Relation.ReflTransGen.head_induction_on generalizing number with
  | refl =>
      rw [outcome_rules, if_pos]
      · exact ⟨_, _, rfl⟩
      · rw [Cursor.rest_skipGap, Cursor.rest_start, isGap.dropGap_append, ended]
  | @head text mid rule _ ih =>
      obtain ⟨s₁, ⟨lhs, left⟩, s₂, equals, ⟨rhs, right⟩⟩ := rule
      obtain ⟨read, d, others⟩ := ih (number + 1)
      have first : (Parser.term (start text)).outcome = .done lhs (start s₁) :=
        outcome_term_start_iff.mpr left
      have second : (Parser.term (start s₂)).outcome = .done rhs (start mid) :=
        outcome_term_start_iff.mpr right
      have found := outcome_tokenChar_of_after rfl equals
      have done : (numberedRule number (start text)).outcome = .done ⟨lhs, rhs⟩ (start mid) :=
        outcome_numberedRule_eq_done.mpr <| outcome_rule_eq_some.mpr
          ⟨start s₁, start s₂, (ignoresGap_term _).trans first, found, second⟩
      rw [outcome_rules, if_neg, outcome_bind_of_done done, outcome_bind_of_done others]
      · exact ⟨_, _, rfl⟩
      · exact dropGap_ne_nil_of_done first

/-! ## What stands before a fault -/

/-- What stands before a place where a phrase can be completed is the front of a text with such a
phrase, with a newline after it. -/
theorem Completable.exists_take {P : Reads} (completable : Completable P text left) {fault : Fault}
    (place : fault.place = start left) :
    ∃ more, P (text.take (fault.report text).index ++ more) ['\n'] := by
  obtain ⟨kept, more, rfl, completed⟩ := completable
  have front : (kept ++ left).take (fault.report (kept ++ left)).index = kept := by
    simp [Fault.report, place, Cursor.index]
  refine ⟨more ++ ['\n'], ?_⟩
  rw [front]
  exact (completed []).2

/-- A fault is never told beyond the place where the text goes wrong: what stands before it is the
front of a text that is read without a fault. This holds of terms and of books. -/
theorem exists_completion_of_fault (text : List Char) (fault : Fault) :
    ((readTerm text).outcome = .failed fault → ∃ more term d,
        (readTerm (text.take (fault.report text).index ++ more)).outcome = .done term d) ∧
      ((readBook text).outcome = .failed fault → ∃ more book d,
        (readBook (text.take (fault.report text).index ++ more)).outcome = .done book d) := by
  constructor
  · intro failed
    obtain ⟨left, place, completable⟩ := completes_term text fault failed
    obtain ⟨more, term, derivation⟩ := completable.exists_take place
    exact ⟨more, term, _, outcome_term_start_iff.mpr derivation⟩
  · intro failed
    obtain ⟨left, place, completable⟩ := completes_book text fault failed
    obtain ⟨more, rules⟩ := completable.exists_take place
    obtain ⟨read, d, done⟩ := rules.exists_rules rfl 0
    refine ⟨more, ⟨read⟩, d, ?_⟩
    rw [readBook, book, outcome_map, done]
    rfl

/-- An abstraction whose name is missing fails after its mark, as a term and in a book, and a text
that goes on after the mark is read. -/
theorem exists_completion_of_fault_lam :
    ((readTerm ['@', '%']).outcome = .failed ⟨"name", start ['%']⟩ ∧
        ∃ more term d, (readTerm (['@'] ++ more)).outcome = .done term d) ∧
      (readBook ['@', '%']).outcome = .failed ⟨"name", start ['%']⟩ ∧
        ∃ more book d, (readBook (['@'] ++ more)).outcome = .done book d := by
  have here : Form.at? (dropGap ['@', '%']) = some .lam := rfl
  have marked := Form.outcome_lamHead_of_after (.inr rfl) (.refl ['@', '%'])
  have body : (Form.lam.body term (start ['@', '%'])).outcome = .failed ⟨"name", start ['%']⟩ :=
    (outcome_bind_of_done marked).trans rfl
  have failedTerm : (readTerm ['@', '%']).outcome = .failed ⟨"name", start ['%']⟩ :=
    (outcome_term here).trans body
  have choice : (choice (Form.parsers term) (start ['@', '%'])).outcome =
      .failed ⟨"name", start ['%']⟩ := by
    rw [Form.parsers, Form.choice_forms, ← Form.at?, Cursor.rest_start, here]
    exact outcome_map_eq_failed.mpr body
  have rule : (rule (start ['@', '%'])).outcome = .failed ⟨"name", start ['%']⟩ :=
    outcome_maybe_eq_failed.mpr (outcome_bind_eq_failed.mpr (.inl choice))
  have first : (numberedRule 0 (start ['@', '%'])).outcome = .failed ⟨"name", start ['%']⟩ := by
    refine outcome_bind_eq_failed.mpr (.inr ⟨_, start ['@', '%'], rfl, ?_⟩)
    refine outcome_bind_eq_failed.mpr (.inr ⟨_, start ['@', '%'], rfl, ?_⟩)
    exact outcome_bind_eq_failed.mpr (.inl rule)
  have failedBook : (readBook ['@', '%']).outcome = .failed ⟨"name", start ['%']⟩ := by
    rw [readBook, book, outcome_map, outcome_rules, if_neg (by decide),
      outcome_bind_eq_failed.mpr (.inl first)]
    rfl
  have completions := exists_completion_of_fault ['@', '%'] ⟨"name", start ['%']⟩
  exact ⟨⟨failedTerm, completions.1 failedTerm⟩, failedBook, completions.2 failedBook⟩

end Termbook
