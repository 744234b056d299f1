import Termbook.Proofs.Portable
import Termbook.Proofs.Reread
import Termbook.Proofs.Totality

/-! # No front of a bracketed term is a term

A term in brackets ends with its closing bracket, so whatever follows the term has no part in it:
put more text after it, and the same term is read up to the same place. Hence no shorter front of a
text that begins with a bracketed term is a term, wherever the cut falls: not where it leaves a
string literal open up to the end, nor where it makes a name of a keyword, nor where it brings a
bracket inside a literal to close the term. -/

namespace Termbook

open Termbook.Parser
open Cursor (start)

variable {text rest : List Char}

/-! ## More text at the end -/

/-- What stands after a gap does so with more text at its end. -/
theorem After.append {tail : List Char} (after : After text tail) (more : List Char) :
    After (text ++ more) (tail ++ more) := by
  obtain ⟨gap, isGap, rfl⟩ := after
  exact ⟨gap, isGap, List.append_assoc ..⟩

/-- Where something stands after a gap, the text is not empty. -/
theorem After.ne_nil {c : Char} (after : After text (c :: rest)) : text ≠ [] := by
  obtain ⟨gap, -, rfl⟩ := after
  exact List.append_ne_nil_of_right_ne_nil gap nofun

/-- What does not reach the end of its text stands there unchanged with more text at the end. -/
theorem Portable.append {P : Reads} (portable : Portable P text rest) (left : rest ≠ [])
    (more : List Char) : P (text ++ more) (rest ++ more) := by
  obtain ⟨used, closing, rfl, closed, elsewhere⟩ := portable
  obtain rfl := closed left
  have sameHead : Replaces rest (rest ++ more) := .inl (List.head?_append_of_ne_nil rest left)
  rw [List.append_assoc]
  exact (elsewhere _ sameHead).2

/-! ## Bracketed terms -/

/-- The characters that open a term which ends with a closing character of its own. -/
def isBracket (c : Char) : Bool :=
  c == '(' || c == '['

/-- There are two brackets that open a term. -/
theorem isBracket_iff {c : Char} : isBracket c = true ↔ c = '(' ∨ c = '[' := by
  simp [isBracket]

/-- No gap begins with a bracket. -/
theorem solid_of_isBracket {c : Char} (bracket : isBracket c = true) : isSolid c = true := by
  rcases isBracket_iff.mp bracket with rfl | rfl
  · rfl
  · rfl

/-- Brackets belong to no name. -/
theorem isBracket_eq_false_of_isNameChar {c : Char} (nameChar : isNameChar c = true) :
    isBracket c = false := by
  refine Bool.eq_false_iff.mpr fun bracket => ?_
  rcases isBracket_iff.mp bracket with rfl | rfl
  · contradiction
  · contradiction

/-- A delimiter begins no gap and is no bracket. -/
theorem solid_of_isDelimiter {c : Char} (delimiter : isDelimiter c = true) :
    isSolid c = true ∧ isBracket c = false := by
  rcases Bool.or_eq_true_iff.mp delimiter with double | back
  · obtain rfl := eq_of_beq double
    decide
  · obtain rfl := eq_of_beq back
    decide

/-- A term that is derived from a text which, with more text at its end, begins with a bracket, is
derived from the longer text as well, and all of the additional text is left. -/
theorem Derives.append_of_bracket {term : Term} {more tail : List Char} {c : Char}
    (derivation : Derives text (.term term) rest) (bracket : isBracket c = true)
    (opens : After (text ++ more) (c :: tail)) :
    Derives (text ++ more) (.term term) (rest ++ more) := by
  -- the first significant character of the shorter text is that of the longer one, so a bracket
  have noOther {c' : Char} {rest : List Char} (solid : isSolid c' = true)
      (other : isBracket c' = false) : ¬After text (c' :: rest) := by
    intro after
    obtain ⟨rfl, -⟩ := opens.cons_unique (solid_of_isBracket bracket) solid (after.append more)
    exact Bool.false_ne_true (other.symm.trans bracket)
  have noWord {name : String} {rest : List Char} : ¬Word text name rest := by
    rintro ⟨isName, -, after⟩
    obtain ⟨c', letters, shape, nameChar⟩ := isName.exists_eq_cons
    rw [shape] at after
    exact noOther (solid_of_isNameChar nameChar).1 (isBracket_eq_false_of_isNameChar nameChar) after
  have noLiteral {c' : Char} {rest : List Char} (delimiter : isDelimiter c' = true) :
      ¬After text (c' :: rest) :=
    noOther (solid_of_isDelimiter delimiter).1 (solid_of_isDelimiter delimiter).2
  cases derivation with
  -- up to the closing bracket nothing can change, since the bracket itself comes after it
  | ctr opened named capital inner closed =>
      have front := (portable_stands ['('] opened).comp ((portable_word named).comp inner.portable)
      obtain ⟨_, opened, _, named, inner⟩ := front.append closed.ne_nil more
      exact .ctr opened named capital inner (closed.append more)
  | op2 opened symbol first second closed =>
      have takes := Nat.lt_trans second.length_lt first.length_lt
      have front := (portable_stands ['('] opened).comp
        (portable_symbol_comp symbol (first.portable.comp second.portable) takes)
      obtain ⟨_, opened, _, symbol, _, first, second⟩ := front.append closed.ne_nil more
      exact .op2 opened symbol first second (closed.append more)
  | unit opened closed => exact .unit (opened.append more) (closed.append more)
  | app opened arguments inner closed =>
      have front := (portable_stands ['('] opened).comp
        (inner.portable.startsArguments arguments inner.length_lt_dropGap)
      obtain ⟨_, opened, arguments, inner⟩ := front.append closed.ne_nil more
      exact .app opened arguments inner (closed.append more)
  | lst opened inner closed =>
      have front := (portable_stands ['['] opened).comp inner.portable
      obtain ⟨_, opened, inner⟩ := front.append closed.ne_nil more
      exact .lst opened inner (closed.append more)
  -- no other term begins with a bracket
  | letIn mark => exact absurd mark (noOther rfl rfl)
  | dup mark => exact absurd mark (noOther rfl rfl)
  | lam isMark marked =>
      rcases isMark with rfl | rfl
      · exact absurd marked (noOther rfl rfl)
      · exact absurd marked (noOther rfl rfl)
  | chr quoted => exact absurd quoted (noOther rfl rfl)
  | str isDelimiter _ quoted => exact absurd quoted (noLiteral isDelimiter)
  | openStr isDelimiter _ quoted => exact absurd quoted (noLiteral isDelimiter)
  | bareCtr named => exact absurd named noWord
  | num named => exact absurd named noWord
  | var named => exact absurd named noWord

/-- From no shorter front of a text is a term derived, where the text begins with a bracket and a
term stands up to the end of a longer front. -/
theorem Derives.not_front {term term' : Term} {front more tail rest' : List Char} {c : Char}
    (derivation : Derives (front ++ (more ++ rest)) (.term term) rest) (longer : more ≠ [])
    (bracket : isBracket c = true) (opens : After (front ++ (more ++ rest)) (c :: tail)) :
    ¬Derives front (.term term') rest' := by
  intro shorter
  have same := (derivation.unique (shorter.append_of_bracket bracket opens)).2
  have lengths := congrArg List.length same
  have := List.length_pos_iff.mpr longer
  simp only [List.length_append] at lengths
  omega

/-! ## Reading a cut text -/

/-- A term in brackets that is cut off anywhere is refused: where a term is read from the start of a
text up to some index, and the first significant character is a bracket, reading any shorter front
of the text ends with a fault. -/
theorem cut_bracketed_refused (text : List Char) (term : Term) (d : Cursor)
    (read : (readTerm text).outcome = .done term d)
    (bracket : (dropGap text).head? = some '(' ∨ (dropGap text).head? = some '[')
    (front : List Char) (within : front <+: text.take (d.index text.length))
    (proper : front ≠ text.take (d.index text.length)) :
    ∃ fault, (readTerm front).outcome = .failed fault := by
  obtain ⟨rest, rfl, derivation⟩ := exists_derives_of_done read
  obtain ⟨c, first, head⟩ : ∃ c, isBracket c = true ∧ (dropGap text).head? = some c := by
    rcases bracket with round | square
    · exact ⟨'(', rfl, round⟩
    · exact ⟨'[', rfl, square⟩
  obtain ⟨tail, shape⟩ := List.head?_eq_some_iff.mp head
  have opens : After text (c :: tail) :=
    (after_iff_dropGap_eq (significant_cons (solid_of_isBracket first))).mpr shape
  -- what has been read lies before the rest, and the front is a part of it
  obtain ⟨used, -, rfl, -⟩ := derivation.portable
  have stopped : (used ++ rest).take ((start rest).index (used ++ rest).length) = used := by
    have count : (start rest).index (used ++ rest).length = used.length := by
      rw [Cursor.index, Cursor.beyond_start, Cursor.remaining_start, List.length_append]
      omega
    rw [count, List.take_left]
  rw [stopped] at within proper
  obtain ⟨more, rfl⟩ := within
  have longer : more ≠ [] := by
    rintro rfl
    exact proper (List.append_nil front).symm
  rw [List.append_assoc] at derivation opens
  rcases ends_term (start front) with ⟨term', d', done⟩ | failed
  · obtain ⟨rest', rfl, shorter⟩ := exists_derives_of_done done
    exact absurd shorter (derivation.not_front longer first opens)
  · exact failed

/-- A bracketed string literal that holds a closing bracket, cut off behind that bracket: what is
left is an open literal, and the bracket before it is never closed. -/
theorem cut_bracketed_refused_literal :
    (∃ term d, (readTerm ['(', '\x22', ')', '\x22', ')']).outcome = .done term d ∧ d.index 5 = 5) ∧
      ∃ fault, (readTerm ['(', '\x22', ')']).outcome = .failed fault := by
  have literal : Derives ['\x22', ')', '\x22', ')'] (.term (.ofText [')'])) [')'] :=
    @Derives.str _ [')'] _ _ rfl (by decide) (.refl _)
  have derivation : Derives ['(', '\x22', ')', '\x22', ')'] (.term ((Term.ofText [')']).applyTo []))
      [] :=
    .app (.refl _) (startsArguments_of_after (.refl _) rfl rfl (by decide))
      (.moreTerms literal .noTerms) (.refl _)
  have read : (readTerm ['(', '\x22', ')', '\x22', ')']).outcome =
      .done ((Term.ofText [')']).applyTo []) (start []) := outcome_term_start_iff.mpr derivation
  exact ⟨⟨_, _, read, rfl⟩, cut_bracketed_refused _ _ _ read (.inl rfl) ['(', '\x22', ')']
    (by decide) (by decide)⟩

end Termbook
