import Termbook.Proofs.Inherited
import Termbook.Term.Checked

/-! # Reading always ends

From every place of every text the readers of terms, rules and books come to an end, with a value or
with a fault. A recursion goes on only after some text has been taken, so it never comes back to a
place where it has been. Nor is anything attempted on the way that could go wrong otherwise: each
number that becomes part of a term passes its check, and a string literal is read only where its
delimiter stands. -/

namespace Termbook

open Termbook.Parser
open Cursor (start ofIndex)

variable {α β γ : Type}

/-! ## Endings -/

/-- An outcome that is a value or a fault. -/
def Outcome.Ends (outcome : Outcome α) : Prop :=
  (∃ value next, outcome = .done value next) ∨ ∃ fault, outcome = .failed fault

/-- Whatever is not endless ends. -/
theorem Outcome.ends_iff {outcome : Outcome α} : outcome.Ends ↔ outcome ≠ .endless := by
  cases outcome <;> simp [Outcome.Ends]

/-- Sequences inherit that their replies end. -/
theorem inherited_ends : Inherited fun reply => reply.outcome.Ends where
  quiet _ ends := Outcome.ends_iff.mpr ends
  after _ ends := ends
  other ends only := Outcome.ends_iff.mpr fun endless => Outcome.ends_iff.mp ends (only endless)

/-- An event is no obstacle to an end. -/
theorem ends_note (event : Event) (c : Cursor) :
    (⟨[event], .done () c⟩ : Reply Unit).outcome.Ends :=
  .inl ⟨(), c, rfl⟩

theorem ends_term (c : Cursor) : (term c).outcome.Ends :=
  inherited_ends.term (fun _ _ _ => ends_note _ _) c

theorem ends_rule (c : Cursor) : (rule c).outcome.Ends :=
  inherited_ends.rule (fun _ _ _ => ends_note _ _) c

theorem ends_rules (number : Nat) (c : Cursor) : (rules number c).outcome.Ends :=
  inherited_ends.rules (fun _ _ _ => ends_note _ _) (fun _ _ _ _ => ends_note _ _) number c

theorem ends_book (c : Cursor) : (book c).outcome.Ends :=
  inherited_ends.book (fun _ _ _ => ends_note _ _) (fun _ _ _ _ => ends_note _ _) c

/-- Terms in brackets come to an end. -/
theorem ends_terms (c : Cursor) : (manyUntil (.token [')']) term c).outcome.Ends :=
  inherited_ends.manyUntil takesText_term ends_term c

/-- The items of a list come to an end. -/
theorem ends_items (c : Cursor) :
    (manyUntil (.token [']']) (Form.lstItem term) c).outcome.Ends :=
  inherited_ends.manyUntil (Form.takesText_lstItem takesText_term)
    (inherited_ends.bodyClosed.lstItem ends_term) c

/-- From a place of a text a term is read up to a later place of that text, or there is a fault. -/
theorem outcome_term_ofIndex (text : List Char) {i : Nat} (within : i ≤ text.length) :
    (∃ read j, i < j ∧ j ≤ text.length ∧
        (term (ofIndex text i)).outcome = .done read (ofIndex text j)) ∨
      ∃ fault, (term (ofIndex text i)).outcome = .failed fault := by
  rcases ends_term (ofIndex text i) with ⟨read, d, done⟩ | failed
  · left
    obtain ⟨j, rfl⟩ : ∃ j, d = ofIndex text j := ⟨_, (forward_term.onward done).exists_ofIndex⟩
    have less := takesText_term _ _ _ done
    have inside := (outcome_term_ofIndex_iff.mp done).2.1
    simp only [ofIndex] at less
    exact ⟨read, j, by omega, inside, done⟩
  · exact .inr failed

/-! ## Numbers pass their check -/

namespace Parser

/-- Changing the value of a sequence changes the value of its second part. -/
theorem map_bind (change : β → γ) (first : Parser α) (next : α → Parser β) :
    change <$> (first >>= next) = first >>= fun value => change <$> next value := by
  funext c
  rw [map_apply, bind_apply, bind_apply]
  rcases first c with ⟨trace, ⟨value, d⟩ | fault | _⟩
  · dsimp only
    rw [map_apply]
    rcases next value d with ⟨trace, _ | _ | _⟩ <;> rfl
  · rfl
  · rfl

/-- Changing a value twice is changing it once. -/
theorem map_map (again : β → γ) (change : α → β) (parser : Parser α) :
    again <$> change <$> parser = (again ∘ change) <$> parser := by
  funext c
  rw [map_apply, map_apply, map_apply]
  rcases parser c with ⟨trace, _ | _ | _⟩ <;> rfl

/-- A name that has been read is not empty. -/
theorem ne_nil_of_requireName {c d : Cursor} {name : String}
    (named : (requireName c).outcome = .done name d) : name.toList ≠ [] := by
  simp only [requireName] at named
  split at named
  · contradiction
  · next nonempty =>
      cases named
      rw [String.toList_ofList]
      exact mt List.isEmpty_iff.mpr nonempty

end Parser

namespace Term

/-- A number that fits into 64 bits is a term. -/
theorem ofInt_natCast {number : Nat} (small : number ≤ maxNumber) :
    ofInt number = .ok (.num (UInt64.ofNat number)) := by
  rw [ofInt, if_pos ⟨Int.natCast_nonneg _, by exact_mod_cast small⟩, Int.toNat_natCast]

/-- The number of a character fits into 64 bits. -/
theorem ofInt_char (c : Char) : ofInt c.toNat = .ok (.ofChar c) := by
  refine ofInt_natCast ?_
  have range := toNat_range c
  have : maxNumber = 18446744073709551615 := rfl
  omega

/-- The chain of a text, in which each number is checked as it is put into its link. -/
def checkedText : List Char → Except PartError Term
  | [] => .ok (.ctr strNilName [])
  | c :: rest => do
      let tail ← checkedText rest
      let head ← ofInt c.toNat
      return .ctr strConsName [head, tail]

/-- The numbers of a text pass their checks. -/
theorem checkedText_eq (text : List Char) : checkedText text = .ok (.ofText text) := by
  induction text with
  | nil => rfl
  | cons c rest ih =>
      rw [checkedText, ih, ofInt_char]
      rfl

end Term

namespace Form

/-- The term that brackets make of the terms in them, with the number checked that stands for
nothing. -/
def inBracketsChecked : List Term → Except PartError Term
  | [] => Term.ofInt 0
  | func :: args => .ok (func.applyTo args)

theorem inBracketsChecked_eq (terms : List Term) :
    inBracketsChecked terms = .ok (inBrackets terms) := by
  cases terms with
  | nil => exact Term.ofInt_natCast (Nat.zero_le _)
  | cons func args => rfl

/-- Read a number and check it. The check is there to refuse what does not fit into 64 bits. -/
def checkedNumBody : Parser (Except PartError Term) := do
  let start ← here
  let numeral ← requireName
  let digits := numeral.toList
  if digits.all Char.isDigit ∧ Nat.ofDigitChars 10 digits 0 ≤ maxNumber then
    return Term.ofInt (Nat.ofDigitChars 10 digits 0)
  failAt "number" start.skipGap

/-- Read a character in single quotes and check its number. -/
def checkedChrBody : Parser (Except PartError Term) := do
  require ['\'']
  match ← peek with
  | none => failAt "character" (← here)
  | some c =>
      advance
      if !(← exactly ['\'']) then
        failAt "'" (← here)
      return Term.ofInt c.toNat

/-- Read a string literal and check the number of each character. -/
def checkedStrBody : Parser (Except PartError Term) := fun c =>
  let place := c.skipGap
  match place.rest with
  | [] => .failed (String.ofList [doubleQuote]) place
  | delimiter :: rest =>
      let content := rest.takeWhile (· != delimiter)
      .done (Term.checkedText content) (place.advance (content.length + 2))

/-- Read a term in a form, with each number checked that the form makes part of it. -/
def checkedBody (term : Parser Term) : Form → Parser (Except PartError Term)
  | num => checkedNumBody
  | chr => checkedChrBody
  | str => checkedStrBody
  | app => inBracketsChecked <$> sequence ['('] [')'] term
  | form => .ok <$> form.body term

/-- A numeral is read as the number that passes its check. -/
theorem checkedNumBody_eq : checkedNumBody = .ok <$> numBody := by
  rw [numBody, checkedNumBody, map_bind]
  refine congrArg _ (funext fun start => ?_)
  rw [map_bind]
  funext c
  refine bind_congr rfl fun numeral d named => ?_
  have nonempty : numeral.toList ≠ [] := ne_nil_of_requireName named
  by_cases fits : numeral.toList.all Char.isDigit ∧ Nat.ofDigitChars 10 numeral.toList 0 ≤ maxNumber
  · have read : readNumeral? numeral.toList =
        some (UInt64.ofNat (Nat.ofDigitChars 10 numeral.toList 0)) := by
      rw [readNumeral?, if_pos ⟨nonempty, fits.1⟩]
      exact if_pos fits.2
    simp only [read, if_pos fits]
    rw [Term.ofInt_natCast fits.2]
    rfl
  · have refused : readNumeral? numeral.toList = none := by
      rw [readNumeral?]
      split
      · next digits => exact if_neg fun small => fits ⟨digits.2, small⟩
      · rfl
    simp only [refused, if_neg fits]
    rfl

/-- A quoted character is read as the number that passes its check. -/
theorem checkedChrBody_eq : checkedChrBody = .ok <$> chrBody := by
  rw [chrBody, checkedChrBody, map_bind]
  refine congrArg _ (funext fun _ => ?_)
  rw [map_bind]
  refine congrArg _ (funext fun found => ?_)
  cases found with
  | none => rfl
  | some c =>
      dsimp only
      rw [map_bind]
      refine congrArg _ (funext fun _ => ?_)
      rw [map_bind]
      refine congrArg _ (funext fun closed => ?_)
      cases closed with
      | true =>
        rw [Term.ofInt_char]
        rfl
      | false => rfl

/-- A string literal is read as the chain of the numbers that pass their checks. -/
theorem checkedStrBody_eq : checkedStrBody = .ok <$> strBody := by
  funext c
  rw [map_apply]
  simp only [strBody, checkedStrBody]
  cases c.skipGap.rest with
  | nil => rfl
  | cons delimiter rest => simp only [Term.checkedText_eq, Reply.done]

/-- In no form is a number refused, so checking the numbers makes no difference. -/
theorem checkedBody_eq (term : Parser Term) (form : Form) :
    form.checkedBody term = .ok <$> form.body term := by
  cases form with
  | num => exact checkedNumBody_eq
  | chr => exact checkedChrBody_eq
  | str => exact checkedStrBody_eq
  | app =>
      rw [body, appBody, checkedBody, map_map]
      exact congrArg (· <$> _) (funext inBracketsChecked_eq)
  | letIn | dup | lam | ctr | op2 | lst | var => rfl

end Form

/-! ## What is noted -/

/-- An accepted form is the form of the text where it was noted. -/
def Event.Fitting : Event → Prop
  | .accepted label place =>
      ∃ form : Form, form.label = label ∧ Form.at? (dropGap place.rest) = some form
  | .ruleRead .. => True

/-- Sequences inherit that all their events are of one kind. -/
theorem inherited_events (isKind : Event → Prop) :
    Inherited fun reply => ∀ event ∈ reply.trace, isKind event where
  quiet silent _ := by simp [silent]
  after first second := by
    intro event member
    rw [Reply.trace_after] at member
    rcases List.mem_append.mp member with earlier | later
    · exact first event earlier
    · exact second event later
  other events _ := events

/-- The readers of terms, rules and books note a form only where the text has it. -/
theorem fitting_of_mem_trace {event : Event} {c : Cursor}
    (noted : event ∈ (term c).trace ∨ event ∈ (rule c).trace ∨ event ∈ (book c).trace) :
    event.Fitting := by
  have inherited := inherited_events Event.Fitting
  have accepted (form : Form) (c : Cursor) (here : Form.at? (dropGap c.rest) = some form) :
      ∀ event ∈ [Event.accepted form.label c], event.Fitting := by
    intro event member
    obtain rfl := List.mem_singleton.mp member
    exact ⟨form, rfl, here⟩
  have ruleRead (number : Nat) (place : Cursor) (read : Rule) (_ : Cursor) :
      ∀ event ∈ [Event.ruleRead number place read], event.Fitting := by
    intro event member
    obtain rfl := List.mem_singleton.mp member
    trivial
  rcases noted with inTerm | inRule | inBook
  · exact inherited.term accepted c event inTerm
  · exact inherited.rule accepted c event inRule
  · exact inherited.book accepted ruleRead c event inBook

/-- Where the form of string literals fits, a delimiter stands after the gap. -/
theorem Event.Fitting.exists_delimiter {place : Cursor}
    (fitting : (Event.accepted Form.str.label place).Fitting) :
    ∃ delimiter rest, place.skipGap.rest = delimiter :: rest ∧ isDelimiter delimiter = true := by
  obtain ⟨form, same, here⟩ := fitting
  have isStr : form = .str := by
    cases form with
    | str => rfl
    | letIn | dup | lam | ctr | op2 | app | num | chr | lst | var =>
        exact absurd same (by decide)
  have opens : form.opens (dropGap place.rest) = true := by simpa using List.find?_some here
  rw [isStr] at opens
  rw [Cursor.rest_skipGap]
  cases rest : dropGap place.rest with
  | nil =>
      rw [rest] at opens
      contradiction
  | cons delimiter others =>
      rw [rest] at opens
      exact ⟨delimiter, others, rfl, by simpa [Form.opens, Form.headIs] using opens⟩

/-! ## Totality -/

/-- From every place of a text a term is read up to a later place of that text, or there is a fault;
and the readers of terms, rules and books come to an end on every text. In particular every loop
does that they contain, every number that they make part of a term passes its check, and a string
literal is only read where its delimiter stands. -/
theorem reading_ends (text : List Char) :
    (∀ i ≤ text.length,
        (∃ read j, i < j ∧ j ≤ text.length ∧
          (term (ofIndex text i)).outcome = .done read (ofIndex text j)) ∨
        ∃ fault, (term (ofIndex text i)).outcome = .failed fault) ∧
      ((readTerm text).outcome.Ends ∧ (readRule text).outcome.Ends ∧ (readBook text).outcome.Ends) ∧
      (∀ c, (manyUntil (.token [')']) term c).outcome.Ends ∧
        (manyUntil (.token [']']) (Form.lstItem term) c).outcome.Ends ∧
        ∀ number, (rules number c).outcome.Ends) ∧
      (∀ form : Form, form.checkedBody term = .ok <$> form.body term) ∧
      ∀ c place, (.accepted "str" place ∈ (term c).trace ∨ .accepted "str" place ∈ (rule c).trace ∨
          .accepted "str" place ∈ (book c).trace) →
        ∃ delimiter rest, place.skipGap.rest = delimiter :: rest ∧
          isDelimiter delimiter = true := by
  refine ⟨fun i within => outcome_term_ofIndex text within, ⟨?_, ?_, ?_⟩, fun c => ⟨?_, ?_, ?_⟩,
    Form.checkedBody_eq term, fun c place noted => ?_⟩
  · exact ends_term _
  · exact ends_rule _
  · exact ends_book _
  · exact ends_terms c
  · exact ends_items c
  · exact fun number => ends_rules number c
  · exact (fitting_of_mem_trace noted).exists_delimiter

/-- A text that is one string literal without its end is read as a term up to its end, and the form
that is noted has its delimiter at the start of the text. -/
theorem reading_ends_open_literal :
    0 ≤ ['\x22', 'a'].length ∧
      (∃ read j, 0 < j ∧ j ≤ ['\x22', 'a'].length ∧
        (term (ofIndex ['\x22', 'a'] 0)).outcome = .done read (ofIndex ['\x22', 'a'] j)) ∧
      .accepted "str" (start ['\x22', 'a']) ∈ (term (start ['\x22', 'a'])).trace ∧
        ∃ delimiter rest, (start ['\x22', 'a']).skipGap.rest = delimiter :: rest ∧
          isDelimiter delimiter = true := by
  have here : Form.at? (dropGap (start ['\x22', 'a']).rest) = some .str := rfl
  have noted : .accepted "str" (start ['\x22', 'a']) ∈ (term (start ['\x22', 'a'])).trace := by
    rw [term_eq_body, here]
    exact List.mem_cons_self
  have done : (term (ofIndex ['\x22', 'a'] 0)).outcome = .done (.ofText ['a']) (start []) :=
    outcome_term_start_iff.mpr (.openStr rfl (by decide) (.refl _))
  have total := reading_ends ['\x22', 'a']
  refine ⟨Nat.zero_le _, ?_, noted, total.2.2.2.2 _ _ (.inl noted)⟩
  rcases total.1 0 (Nat.zero_le _) with read | ⟨fault, failed⟩
  · exact read
  · rw [done] at failed
    contradiction

end Termbook
