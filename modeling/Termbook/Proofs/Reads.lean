import Termbook.Proofs.Grammar

/-! # Tokens at the start of a text

What the parsers of tokens, names, operators and repetitions do from the start of a text, in the
words of the grammar: each is done exactly where its token stands after a gap, and stops at the
start of the text after it. -/

namespace Termbook

namespace Cursor

@[simp] theorem remaining_start (text : List Char) : (start text).remaining = text.length := rfl

/-- Advancing from the start of a text leads to the start of what is left. -/
@[simp] theorem advance_start (text : List Char) (count : Nat) :
    (start text).advance count = start (text.drop count) := by
  apply ext
  · simp only [rest_advance, rest_start]
  · simp only [beyond_advance, beyond_start]

/-- The gap at the start of a text leads to the start of what is left after it. -/
@[simp] theorem skipGap_start (text : List Char) : (start text).skipGap = start (dropGap text) :=
  advance_start text _

/-- A place within its text is the start of what is left. -/
theorem eq_start_rest {c : Cursor} (within : c.beyond = 0) : c = start c.rest := by
  apply ext
  · rw [rest_start]
  · rw [beyond_start, within]

/-- The starts of two texts are alike only if the texts are. -/
@[simp] theorem start_inj {text other : List Char} : start text = start other ↔ text = other :=
  ⟨fun same => congrArg rest same, fun same => same ▸ rfl⟩

end Cursor

open Cursor (start)

/-! ## Operators -/

namespace Oper

/-- A symbol starts with an operator character, and only division with a slash. -/
theorem exists_symbol_eq_cons (oper : Oper) :
    ∃ c rest, oper.symbol.toList = c :: rest ∧ c ∈ Form.operatorChars ∧
      (c = '/' → oper = .div ∧ rest = []) := by
  cases oper <;> exact ⟨_, _, rfl, by decide, by decide⟩

/-- No operator is listed before one whose symbol begins with its own. -/
theorem all_pairwise :
    all.Pairwise fun oper other => ¬ oper.symbol.toList <+: other.symbol.toList := by
  decide +kernel

/-- Operators with the same symbol are the same. -/
theorem symbol_inj {oper other : Oper} (same : oper.symbol = other.symbol) : oper = other := by
  have known := ofSymbol?_symbol oper
  rw [same, ofSymbol?_symbol] at known
  exact (Option.some.inj known).symm

/-- A symbol is significant, unless it is the first of two slashes. -/
theorem significant_symbol {oper : Oper} {rest : List Char}
    (single : oper = .div → rest.head? ≠ some '/') :
    Significant (oper.symbol.toList ++ rest) := by
  obtain ⟨c, others, shape, isOperator, slash⟩ := oper.exists_symbol_eq_cons
  have notBlank : ∀ c ∈ Form.operatorChars, isBlank c = false := by
    simpa using List.all_eq_true.mp (rfl : Form.operatorChars.all (!isBlank ·) = true)
  rw [shape]
  by_cases isSlash : c = '/'
  · obtain ⟨isDiv, rfl⟩ := slash isSlash
    rw [isSlash]
    exact significant_slash (single isDiv)
  · exact significant_cons (by simp [isSolid, notBlank c isOperator, isSlash])

/-- The first listed operator whose symbol stands at the front of a text is the one with the longest
symbol there. -/
theorem find?_symbol_eq_some_iff {text : List Char} {oper : Oper} :
    all.find? (·.symbol.toList.isPrefixOf text) = some oper ↔
      oper.symbol.toList <+: text ∧ ∀ other : Oper, other.symbol.toList <+: text →
        other.symbol.length ≤ oper.symbol.length := by
  have longest {oper : Oper} (found : all.find? (·.symbol.toList.isPrefixOf text) = some oper)
      {other : Oper} (stands : other.symbol.toList <+: text) :
      other.symbol.length ≤ oper.symbol.length := by
    obtain ⟨here, earlier, later, split, refused⟩ := List.find?_eq_some_iff_append.mp found
    rw [List.isPrefixOf_iff_prefix] at here
    -- two symbols at the front of one text begin one with the other
    rcases List.prefix_or_prefix_of_prefix stands here with shorter | longer
    · rw [← String.length_toList, ← String.length_toList]
      exact shorter.length_le
    · -- the other symbol is longer, so the other operator is listed earlier and was not refused
      have ordered := all_pairwise
      have listed := mem_all other
      rw [split, List.pairwise_append, List.pairwise_cons] at ordered
      rw [split, List.mem_append, List.mem_cons] at listed
      rcases listed with isEarlier | rfl | isLater
      · have := refused other isEarlier
        rw [List.isPrefixOf_iff_prefix.mpr stands] at this
        exact absurd this (by decide)
      · exact Nat.le_refl _
      · exact absurd longer (ordered.2.1.1 other isLater)
  constructor
  · intro found
    have here : oper.symbol.toList.isPrefixOf text = true := by simpa using List.find?_some found
    exact ⟨List.isPrefixOf_iff_prefix.mp here, fun _ => longest found⟩
  · rintro ⟨stands, atLeast⟩
    cases found : all.find? (·.symbol.toList.isPrefixOf text) with
    | none =>
        have := List.find?_eq_none.mp found oper (mem_all oper)
        exact absurd (List.isPrefixOf_iff_prefix.mpr stands) this
    | some other =>
        have here : other.symbol.toList.isPrefixOf text = true := by
          simpa using List.find?_some found
        rw [List.isPrefixOf_iff_prefix] at here
        have sameLength : other.symbol.toList.length = oper.symbol.toList.length := by
          have := longest found stands
          have := atLeast other here
          simp only [String.length_toList]
          omega
        have same := List.prefix_of_prefix_length_le here stands (Nat.le_of_eq sameLength)
        rw [symbol_inj (String.toList_inj.mp (same.eq_of_length sameLength))]

end Oper

/-! ## Texts after a gap -/

/-- What stands after a gap is no longer than the text. -/
theorem After.length_le {text tail : List Char} (after : After text tail) :
    tail.length ≤ text.length := by
  obtain ⟨gap, -, rfl⟩ := after
  simp

/-- A solid character stands significantly before any text. -/
theorem significant_singleton {c : Char} (solid : isSolid c = true) (tail : List Char) :
    Significant ([c] ++ tail) :=
  significant_cons solid

/-- What stands after a character after a gap is shorter than the text. -/
theorem After.length_lt {text rest : List Char} {c : Char} (after : After text (c :: rest)) :
    rest.length < text.length := by
  have := after.length_le
  rwa [List.length_cons] at this

/-- A name after a gap begins what is left after the gap. -/
theorem Word.dropGap_eq {text rest : List Char} {name : String} (word : Word text name rest) :
    dropGap text = name.toList ++ rest :=
  (after_iff_dropGap_eq (word.1.significant rest)).mp word.2.2

/-- What stands after a name is shorter than the text. -/
theorem Word.length_lt {text rest : List Char} {name : String} (word : Word text name rest) :
    rest.length < text.length := by
  obtain ⟨⟨nonempty, -⟩, -, after⟩ := word
  have := after.length_le
  have := List.length_pos_iff.mpr nonempty
  rw [List.length_append] at *
  omega

/-- A significant text after a gap starts with what the text of a token is. -/
theorem exists_after_iff {pattern text : List Char}
    (significant : ∀ tail, Significant (pattern ++ tail)) :
    (∃ tail, After text (pattern ++ tail)) ↔ pattern.isPrefixOf (dropGap text) = true := by
  rw [List.isPrefixOf_iff_prefix]
  constructor
  · rintro ⟨tail, after⟩
    exact ⟨tail, ((after_iff_dropGap_eq (significant tail)).mp after).symm⟩
  · rintro ⟨tail, split⟩
    exact ⟨tail, (after_iff_dropGap_eq (significant tail)).mpr split.symm⟩

namespace Parser

variable {α : Type} {text pattern : List Char} {d : Cursor}

/-! ## Fixed texts -/

/-- A text that stands after a gap is read by whatever looks for it there. -/
theorem token_start_of_after {tail : List Char} (significant : Significant (pattern ++ tail))
    (nonempty : pattern ≠ []) (after : After text (pattern ++ tail)) :
    token pattern (start text) = .done true (start tail) := by
  have known := (after_iff_dropGap_eq significant).mp after
  have here : pattern.isPrefixOf (pattern ++ tail) = true := by simp [List.isPrefixOf_iff_prefix]
  rw [Form.token_apply nonempty, Cursor.rest_start, known, if_pos here, Cursor.skipGap_start, known,
    Cursor.advance_start, List.drop_left]

/-- A text that stands after no gap is not read. -/
theorem token_start_of_not_after (significant : ∀ tail, Significant (pattern ++ tail))
    (absent : ∀ tail, ¬ After text (pattern ++ tail)) :
    token pattern (start text) = .done false (start text) := by
  have notHere : ¬ pattern.isPrefixOf (dropGap text) = true := fun here =>
    have ⟨tail, after⟩ := (exists_after_iff significant).mpr here
    absent tail after
  have nonempty : pattern ≠ [] := by
    rintro rfl
    exact significant []
  rw [Form.token_apply nonempty, Cursor.rest_start, if_neg notHere]

/-- A text is found if and only if it stands after a gap, and otherwise nothing is read. -/
theorem outcome_token_start (significant : ∀ tail, Significant (pattern ++ tail)) {found : Bool} :
    (token pattern (start text)).outcome = .done found d ↔
      if found then ∃ tail, After text (pattern ++ tail) ∧ d = start tail
      else (∀ tail, ¬ After text (pattern ++ tail)) ∧ d = start text := by
  have nonempty : pattern ≠ [] := by
    rintro rfl
    exact significant []
  by_cases present : ∃ tail, After text (pattern ++ tail)
  · obtain ⟨tail, after⟩ := present
    rw [token_start_of_after (significant tail) nonempty after]
    cases found with
    | true =>
        simp only [Reply.done, Outcome.done.injEq, true_and, if_true]
        constructor
        · exact fun stopped => ⟨tail, after, stopped.symm⟩
        · rintro ⟨tail', after', rfl⟩
          have same := after.unique (significant tail) (significant tail') after'
          rw [List.append_cancel_left same]
    | false =>
        have present : ¬ ∀ tail, ¬ After text (pattern ++ tail) := fun absent => absent tail after
        simp [Reply.done, present]
  · have absent := not_exists.mp present
    rw [token_start_of_not_after significant absent]
    cases found with
    | true =>
        have nowhere : ¬ ∃ tail, After text (pattern ++ tail) ∧ d = start tail := by
          rintro ⟨tail, after, -⟩
          exact absent tail after
        simp [Reply.done, nowhere]
    | false => simp [Reply.done, absent, eq_comm]

/-- A character is found if and only if it stands after a gap, and otherwise nothing is read. -/
theorem outcome_tokenChar_start {c : Char} (solid : isSolid c = true) {found : Bool} :
    (token [c] (start text)).outcome = .done found d ↔
      if found then ∃ tail, After text (c :: tail) ∧ d = start tail
      else (∀ tail, ¬ After text (c :: tail)) ∧ d = start text :=
  outcome_token_start (significant_singleton solid)

/-- A character that stands after a gap is found. -/
theorem outcome_tokenChar_of_after {c : Char} (solid : isSolid c = true) {rest : List Char}
    (after : After text (c :: rest)) :
    (token [c] (start text)).outcome = .done true (start rest) :=
  (outcome_tokenChar_start solid).mpr ⟨rest, after, rfl⟩

/-- A character that stands after no gap is not found, and nothing is read. -/
theorem outcome_tokenChar_of_not_after {c : Char} (solid : isSolid c = true)
    (absent : ∀ tail, ¬ After text (c :: tail)) :
    (token [c] (start text)).outcome = .done false (start text) :=
  (outcome_tokenChar_start solid).mpr ⟨absent, rfl⟩

/-- A required text is read where that text is found. -/
theorem outcome_require_eq_done {c : Cursor} {u : Unit} :
    (require pattern c).outcome = .done u d ↔ (token pattern c).outcome = .done true d := by
  simp only [require, token]
  split <;> simp [Reply.done, Reply.failed]

/-- A required text is read if and only if it stands after a gap. -/
theorem outcome_require_start (significant : ∀ tail, Significant (pattern ++ tail)) {u : Unit} :
    (require pattern (start text)).outcome = .done u d ↔
      ∃ tail, After text (pattern ++ tail) ∧ d = start tail := by
  rw [outcome_require_eq_done, outcome_token_start significant, if_pos rfl]

/-- A sequence that requires a text goes on after that text. -/
theorem outcome_require_bind (significant : ∀ tail, Significant (pattern ++ tail))
    {next : Unit → Parser α} {value : α} :
    ((require pattern >>= next) (start text)).outcome = .done value d ↔
      ∃ tail, After text (pattern ++ tail) ∧ (next () (start tail)).outcome = .done value d := by
  rw [outcome_bind_eq_done]
  constructor
  · rintro ⟨_, e, required, done⟩
    obtain ⟨tail, after, rfl⟩ := (outcome_require_start significant).mp required
    exact ⟨tail, after, done⟩
  · rintro ⟨tail, after, done⟩
    exact ⟨(), start tail, (outcome_require_start significant).mpr ⟨tail, after, rfl⟩, done⟩

/-- A sequence that requires a character goes on after that character. -/
theorem outcome_requireChar_bind {c : Char} (solid : isSolid c = true)
    {next : Unit → Parser α} {value : α} :
    ((require [c] >>= next) (start text)).outcome = .done value d ↔
      ∃ tail, After text (c :: tail) ∧ (next () (start tail)).outcome = .done value d :=
  outcome_require_bind (significant_singleton solid)

/-- A text right here is read if the text goes on with it. -/
theorem exactly_start (pattern text : List Char) :
    exactly pattern (start text) =
      if pattern.isPrefixOf text then .done true (start (text.drop pattern.length))
      else .done false (start text) := by
  rw [exactly, Cursor.startsWith, Cursor.beyond_start, Cursor.advance_start]
  rfl

/-! ## String literals -/

/-- Characters other than a delimiter are taken up to where it comes first. -/
theorem takeWhile_ne_append {delimiter : Char} {content : List Char} (pure : delimiter ∉ content)
    (tail : List Char) :
    (content ++ tail).takeWhile (· != delimiter) =
      content ++ tail.takeWhile (· != delimiter) :=
  List.takeWhile_append_of_pos fun _ member =>
    bne_iff_ne.mpr fun same => pure (same ▸ member)

/-- A literal ends at the next character like the one that it starts with. -/
theorem strBody_start_of_closed {delimiter : Char} {content rest : List Char}
    (pure : delimiter ∉ content)
    (known : dropGap text = delimiter :: (content ++ delimiter :: rest)) :
    Form.strBody (start text) = .done (.ofText content) (start rest) := by
  have taken : (content ++ delimiter :: rest).takeWhile (· != delimiter) = content := by
    rw [takeWhile_ne_append pure, List.takeWhile_cons_of_neg (by simp), List.append_nil]
  have dropped : (content ++ delimiter :: rest).drop (content.length + 1) = rest := by
    rw [List.drop_append]
    simp
  simp only [Form.strBody, Cursor.skipGap_start, Cursor.rest_start, known, taken,
    Cursor.advance_start, List.drop_succ_cons, dropped]

/-- A literal without such a character goes on to the end of the text. -/
theorem strBody_start_of_open {delimiter : Char} {content : List Char} (pure : delimiter ∉ content)
    (known : dropGap text = delimiter :: content) :
    Form.strBody (start text) = .done (.ofText content) (start []) := by
  have taken : content.takeWhile (· != delimiter) = content := by
    simpa using takeWhile_ne_append pure []
  -- one more character than there is, the missing delimiter, is passed over
  have dropped : content.drop (content.length + 1) = [] := List.drop_eq_nil_of_le (by omega)
  simp only [Form.strBody, Cursor.skipGap_start, Cursor.rest_start, known, taken,
    Cursor.advance_start, List.drop_succ_cons, dropped]

/-- After its first character a literal either comes to the same character again or not. -/
theorem closed_or_open (delimiter : Char) (text : List Char) :
    (∃ content rest, delimiter ∉ content ∧ text = content ++ delimiter :: rest) ∨
      delimiter ∉ text := by
  by_cases member : delimiter ∈ text
  · obtain ⟨content, rest, split, pure⟩ := List.eq_append_cons_of_mem member
    exact .inl ⟨content, rest, pure, split⟩
  · exact .inr member

/-! ## Names -/

/-- What is left after a gap begins with a name if and only if that name stands there. -/
theorem word_iff {name : String} {rest : List Char} :
    Word text name rest ↔
      IsName name ∧ EndsName rest ∧ dropGap text = name.toList ++ rest := by
  constructor
  · intro word
    exact ⟨word.1, word.2.1, word.dropGap_eq⟩
  · rintro ⟨isName, ends, split⟩
    exact ⟨isName, ends, (after_iff_dropGap_eq (isName.significant rest)).mpr split⟩

/-- A name is read if and only if it stands after a gap. -/
theorem outcome_requireName_start {name : String} :
    (requireName (start text)).outcome = .done name d ↔
      ∃ rest, Word text name rest ∧ d = start rest := by
  have split : (dropGap text).takeWhile isNameChar ++ (dropGap text).dropWhile isNameChar =
      dropGap text := List.takeWhile_append_dropWhile
  simp only [requireName, Cursor.skipGap_start, Cursor.rest_start, Cursor.advance_start]
  constructor
  · intro done
    split at done
    · contradiction
    · next nonempty =>
        obtain ⟨rfl, rfl⟩ : String.ofList ((dropGap text).takeWhile isNameChar) = name ∧
            start ((dropGap text).drop ((dropGap text).takeWhile isNameChar).length) = d := by
          simpa [Reply.done] using done
        refine ⟨(dropGap text).dropWhile isNameChar, word_iff.mpr ⟨⟨?_, ?_⟩, ?_, ?_⟩, ?_⟩
        · rw [String.toList_ofList]
          exact mt List.isEmpty_iff.mpr nonempty
        · rw [String.toList_ofList]
          exact List.all_eq_true.mp List.all_takeWhile
        · exact endsName_dropWhile _
        · rw [String.toList_ofList, split]
        · exact congrArg start
            ((congrArg (List.drop _) split).symm.trans (List.drop_left ..))
  · rintro ⟨rest, word, rfl⟩
    obtain ⟨⟨nonempty, nameChars⟩, ends, known⟩ := word_iff.mp word
    rw [known, takeWhile_isNameChar_append nameChars ends, String.ofList_toList, List.drop_left,
      if_neg (mt List.isEmpty_iff.mp nonempty)]
    rfl

/-- A sequence that requires a name goes on after that name. -/
theorem outcome_requireName_bind {next : String → Parser α} {value : α} :
    ((requireName >>= next) (start text)).outcome = .done value d ↔
      ∃ name rest, Word text name rest ∧ (next name (start rest)).outcome = .done value d := by
  rw [outcome_bind_eq_done]
  constructor
  · rintro ⟨name, e, named, done⟩
    obtain ⟨rest, word, rfl⟩ := outcome_requireName_start.mp named
    exact ⟨name, rest, word, done⟩
  · rintro ⟨name, rest, word, done⟩
    exact ⟨name, start rest, outcome_requireName_start.mpr ⟨rest, word, rfl⟩, done⟩

/-! ## Operators in a text -/

/-- A symbol stands in a text if and only if it is the first listed one at what is left after the
gap. -/
theorem symbol_iff {oper : Oper} {rest : List Char} :
    Symbol text oper rest ↔
      Oper.all.find? (·.symbol.toList.isPrefixOf (dropGap text)) = some oper ∧
        dropGap text = oper.symbol.toList ++ rest := by
  rw [Oper.find?_symbol_eq_some_iff]
  constructor
  · rintro ⟨after, single, longest⟩
    have known := (after_iff_dropGap_eq (Oper.significant_symbol single)).mp after
    rw [known]
    exact ⟨⟨List.prefix_append .., longest⟩, rfl⟩
  · rintro ⟨⟨stands, longest⟩, known⟩
    have significant : Significant (dropGap text) := significant_dropGap fun empty => by
      rw [empty] at stands
      obtain ⟨c, others, shape, -⟩ := oper.exists_symbol_eq_cons
      exact absurd (List.prefix_nil.mp stands) (by simp [shape])
    -- what is left after a gap begins with no comment, so a slash there stands alone
    have single : oper = .div → rest.head? ≠ some '/' := by
      rintro rfl isSlash
      cases rest with
      | nil => contradiction
      | cons c rest =>
          cases isSlash
          rw [known] at significant
          exact significant.2 ⟨rest, rfl⟩
    rw [known] at longest
    exact ⟨(after_iff_dropGap_eq (Oper.significant_symbol single)).mpr known, single, longest⟩

/-- The choice between operators is the first one whose symbol begins what is left after the gap. -/
theorem choice_operParser_start (opers : List Oper) (text : List Char) :
    choice (opers.map Form.operParser) (start text) =
      match opers.find? (·.symbol.toList.isPrefixOf (dropGap text)) with
      | some oper => .done (some oper) (start ((dropGap text).drop oper.symbol.toList.length))
      | none => .done none (start text) := by
  induction opers with
  | nil => rfl
  | cons oper opers ih =>
      obtain ⟨c, others, shape, -⟩ := oper.exists_symbol_eq_cons
      have nonempty : oper.symbol.toList ≠ [] := by simp [shape]
      simp only [List.map_cons, choice, Form.operParser, List.find?_cons]
      rw [bind_apply, Form.token_apply nonempty, Cursor.rest_start]
      cases oper.symbol.toList.isPrefixOf (dropGap text) with
      | true => simp [Reply.done]
      | false => simpa [Reply.done] using ih

/-- An operator is read if and only if its symbol stands after a gap. -/
theorem outcome_operReader_start {oper : Oper} :
    (Form.operReader (start text)).outcome = .done oper d ↔
      ∃ rest, Symbol text oper rest ∧ d = start rest := by
  rw [Form.operReader, grammar, choice_operParser_start]
  simp only [symbol_iff]
  cases search : Oper.all.find? (·.symbol.toList.isPrefixOf (dropGap text)) with
  | none => simp [Reply.done]
  | some found =>
      obtain ⟨rest, split⟩ := (Oper.find?_symbol_eq_some_iff.mp search).1
      simp only [Reply.done, Outcome.done.injEq, Option.some.injEq, ← split, List.drop_left]
      constructor
      · rintro ⟨rfl, rfl⟩
        exact ⟨rest, ⟨rfl, rfl⟩, rfl⟩
      · rintro ⟨rest', ⟨rfl, same⟩, rfl⟩
        exact ⟨rfl, congrArg start (List.append_cancel_left same)⟩

/-- A sequence that reads an operator goes on after its symbol. -/
theorem outcome_operReader_bind {next : Oper → Parser α} {value : α} :
    ((Form.operReader >>= next) (start text)).outcome = .done value d ↔
      ∃ oper rest, Symbol text oper rest ∧ (next oper (start rest)).outcome = .done value d := by
  rw [outcome_bind_eq_done]
  constructor
  · rintro ⟨oper, e, read, done⟩
    obtain ⟨rest, symbol, rfl⟩ := outcome_operReader_start.mp read
    exact ⟨oper, rest, symbol, done⟩
  · rintro ⟨oper, rest, symbol, done⟩
    exact ⟨oper, start rest, outcome_operReader_start.mpr ⟨rest, symbol, rfl⟩, done⟩

/-! ## Repetitions -/

variable {element : Nat → Parser α}

/-- A repetition up to a fixed text stops where that text stands after a gap, and reads an element
where it does not and something is left. -/
theorem outcome_manyUntilFrom_start (significant : ∀ tail, Significant (pattern ++ tail))
    (takes : ∀ number, TakesText (element number)) {number : Nat} {values : List α} :
    (manyUntilFrom (.token pattern) element number (start text)).outcome = .done values d ↔
      (values = [] ∧ ∃ tail, After text (pattern ++ tail) ∧ d = start tail) ∨
      ((∀ tail, ¬ After text (pattern ++ tail)) ∧ dropGap text ≠ [] ∧
        ∃ value e others, values = value :: others ∧
          (element number (start text)).outcome = .done value e ∧
          (manyUntilFrom (.token pattern) element (number + 1) e).outcome = .done others d) := by
  have nonempty : pattern ≠ [] := by
    rintro rfl
    exact significant []
  rw [manyUntilFrom_apply takes, round, outcome_bind_eq_done]
  by_cases present : ∃ tail, After text (pattern ++ tail)
  · -- the closing text is read, and the repetition is over
    obtain ⟨tail, after⟩ := present
    have closed : closes (.token pattern) (start text) = .done true (start tail) := by
      simp only [closes, Closing.token, token_start_of_after (significant tail) nonempty after]
      rfl
    have unique {tail' : List Char} (after' : After text (pattern ++ tail')) : tail = tail' :=
      List.append_cancel_left (after.unique (significant tail) (significant tail') after')
    constructor
    · rintro ⟨found, e, atClosing, done⟩
      rw [closed] at atClosing
      cases atClosing
      cases done
      exact .inl ⟨rfl, tail, after, rfl⟩
    · rintro (⟨rfl, tail', after', rfl⟩ | ⟨absent, -⟩)
      · cases unique after'
        exact ⟨true, start tail, by rw [closed]; rfl, rfl⟩
      · exact absurd after (absent tail)
  · -- nothing is read for the closing text, and an element is asked for at the same place
    have absent := not_exists.mp present
    have open_ : closes (.token pattern) (start text) = .done false (start text) := by
      simp only [closes, Closing.token, token_start_of_not_after significant absent]
      rfl
    constructor
    · rintro ⟨found, e, atClosing, done⟩
      rw [open_] at atClosing
      cases atClosing
      simp only [Bool.false_eq_true, if_false, readOn] at done
      split at done
      · contradiction
      · next left =>
          rw [Cursor.skipGap_start, Cursor.rest_start, List.isEmpty_iff] at left
          obtain ⟨value, e, read, done⟩ := outcome_bind_eq_done.mp done
          obtain ⟨others, e', readOthers, done⟩ := outcome_bind_eq_done.mp done
          cases done
          exact .inr ⟨absent, left, value, e, others, rfl, read, readOthers⟩
    · rintro (⟨-, tail, after, -⟩ | ⟨-, left, value, e, others, rfl, read, readOthers⟩)
      · exact absurd after (absent tail)
      · refine ⟨false, start text, by rw [open_]; rfl, ?_⟩
        simp only [Bool.false_eq_true, if_false, readOn]
        rw [Cursor.skipGap_start, Cursor.rest_start, if_neg (mt List.isEmpty_iff.mp left)]
        exact outcome_bind_eq_done.mpr
          ⟨value, e, read, outcome_bind_eq_done.mpr ⟨others, d, readOthers, rfl⟩⟩

end Parser

end Termbook
