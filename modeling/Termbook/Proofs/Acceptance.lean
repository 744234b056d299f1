import Termbook.Proofs.Reads

/-! # The reader accepts its grammar

The parser of terms is done with a term at a place exactly where the grammar derives that term from
the text before up to the text after. That whatever is read is derived goes by induction on how
much is left, form by form. That whatever is derived is read goes by induction on the derivation;
the form that the derivation used has to be the first one whose opening accepts the text. -/

namespace Termbook

open Termbook.Parser
open Cursor (start)

variable {text rest pattern : List Char} {d : Cursor}

/-! ## What is read is derived -/

/-- What is read from texts shorter than `length` is derived. -/
def ReadsDerived (length : Nat) : Prop :=
  ∀ (text : List Char) (term : Term) (d : Cursor), text.length < length →
    (Parser.term (start text)).outcome = .done term d →
      ∃ rest, d = start rest ∧ rest.length < text.length ∧ Derives text (.term term) rest

/-- A sequence that starts with a term starts with a derived one. -/
theorem ReadsDerived.exists_of_bind {α : Type} {length : Nat} (derived : ReadsDerived length)
    (short : text.length < length) {next : Term → Parser α} {value : α}
    (done : ((Parser.term >>= next) (start text)).outcome = .done value d) :
    ∃ term rest, rest.length < text.length ∧ Derives text (.term term) rest ∧
      (next term (start rest)).outcome = .done value d := by
  obtain ⟨term, e, read, done⟩ := outcome_bind_eq_done.mp done
  obtain ⟨rest, rfl, shorter, first⟩ := derived _ _ _ short read
  exact ⟨term, rest, shorter, first, done⟩

/-- The terms that are read up to a closing bracket are derived in a row. -/
theorem derives_of_manyUntil_term {length number : Nat} (derived : ReadsDerived length)
    (short : text.length < length) {terms : List Term}
    (done : (manyUntilFrom (.token [')']) (fun _ => Parser.term) number (start text)).outcome =
      .done terms d) :
    ∃ mid rest, d = start rest ∧ Derives text (.terms terms) mid ∧ After mid (')' :: rest) := by
  induction terms generalizing text number with
  | nil =>
      rw [outcome_manyUntilFrom_start (significant_singleton (c := ')') rfl)
        fun _ => takesText_term] at done
      obtain ⟨-, rest, closed, rfl⟩ | ⟨-, -, value, e, others, shape, -⟩ := done
      · exact ⟨text, rest, rfl, .noTerms, closed⟩
      · contradiction
  | cons term terms ih =>
      rw [outcome_manyUntilFrom_start (significant_singleton (c := ')') rfl)
        fun _ => takesText_term] at done
      obtain ⟨shape, -⟩ | ⟨-, -, value, e, others, shape, read, done⟩ := done
      · contradiction
      · cases shape
        obtain ⟨mid, rfl, shorter, first⟩ := derived _ _ _ short read
        obtain ⟨mid', rest, rfl, others, closed⟩ := ih (Nat.lt_trans shorter short) done
        exact ⟨mid', rest, rfl, .moreTerms first others, closed⟩

/-- The items that are read up to a closing bracket are derived, each with its comma. -/
theorem derives_of_manyUntil_item {length number : Nat} (derived : ReadsDerived length)
    (short : text.length < length) {items : List Term}
    (done : (manyUntilFrom (.token [']']) (fun _ => Form.lstItem Parser.term) number
      (start text)).outcome = .done items d) :
    ∃ mid rest, d = start rest ∧ Derives text (.items items) mid ∧ After mid (']' :: rest) := by
  induction items generalizing text number with
  | nil =>
      rw [outcome_manyUntilFrom_start (significant_singleton (c := ']') rfl)
        fun _ => Form.takesText_lstItem takesText_term] at done
      obtain ⟨-, rest, closed, rfl⟩ | ⟨-, -, value, e, others, shape, -⟩ := done
      · exact ⟨text, rest, rfl, .noItems, closed⟩
      · contradiction
  | cons item items ih =>
      rw [outcome_manyUntilFrom_start (significant_singleton (c := ']') rfl)
        fun _ => Form.takesText_lstItem takesText_term] at done
      obtain ⟨shape, -⟩ | ⟨-, -, value, e, others, shape, read, done⟩ := done
      · contradiction
      · cases shape
        obtain ⟨item', e', read, readComma⟩ := outcome_bind_eq_done.mp read
        obtain ⟨mid, rfl, shorter, first⟩ := derived _ _ _ short read
        obtain ⟨comma, e'', readComma, stop⟩ := outcome_bind_eq_done.mp readComma
        cases stop
        rw [outcome_tokenChar_start rfl] at readComma
        cases comma with
        | true =>
            obtain ⟨mid', comma, rfl⟩ := readComma
            have : mid'.length < mid.length := comma.length_lt
            obtain ⟨mid'', rest, rfl, others, closed⟩ := ih (by omega) done
            exact ⟨mid'', rest, rfl, .commaItems first comma others, closed⟩
        | false =>
            obtain ⟨-, rfl⟩ := readComma
            obtain ⟨mid', rest, rfl, others, closed⟩ := ih (Nat.lt_trans shorter short) done
            exact ⟨mid', rest, rfl, .moreItems first others, closed⟩

namespace Form

theorem significant_letMark (tail : List Char) : Significant (letMark ++ tail) :=
  significant_cons rfl

theorem significant_dupMark (tail : List Char) : Significant (dupMark ++ tail) :=
  significant_cons rfl

/-- The mark of an abstraction is read where one of its two spellings stands after a gap. -/
theorem outcome_lamHead_start {found : Bool}
    (done : (lamHead (start text)).outcome = .done found d) (isFound : found = true) :
    ∃ mark rest, (mark = 'λ' ∨ mark = '@') ∧ After text (mark :: rest) ∧ d = start rest := by
  obtain ⟨lambda, e, readLambda, done⟩ := outcome_bind_eq_done.mp done
  rw [outcome_tokenChar_start rfl] at readLambda
  cases lambda with
  | true =>
      obtain ⟨rest, after, rfl⟩ := readLambda
      cases done
      exact ⟨'λ', rest, .inl rfl, after, rfl⟩
  | false =>
      obtain ⟨-, rfl⟩ := readLambda
      rw [if_neg Bool.false_ne_true,
        outcome_tokenChar_start rfl, if_pos isFound] at done
      obtain ⟨rest, after, rfl⟩ := done
      exact ⟨'@', rest, .inr rfl, after, rfl⟩

/-- Whether the first character of a name passes a test does not depend on what follows. -/
theorem headIs_append {test : Char → Bool} {letters : List Char} (nonempty : letters ≠ [])
    (rest : List Char) : headIs test (letters ++ rest) = headIs test letters := by
  cases letters with
  | nil => exact absurd rfl nonempty
  | cons c letters => rfl

/-- Where no bracket stands after the gap, the text there is left as it is. -/
theorem dropBracket_of_not_after (absent : ∀ tail, ¬ After text ('(' :: tail)) :
    dropBracket (dropGap text) = dropGap text := by
  cases shape : dropGap text with
  | nil => rfl
  | cons c inner =>
      have notBracket : c ≠ '(' := by
        rintro rfl
        exact absent inner ((after_iff_dropGap_eq (significant_cons rfl)).mpr shape)
      simp [dropBracket, notBracket]

/-- The form of a text accepts it. -/
theorem opens_of_at? {form : Form} (here : at? text = some form) : form.opens text = true := by
  simpa using List.find?_some here

/-- The forms before the one that a text has refuse the text. -/
theorem opens_eq_false_of_at? {form other : Form} (here : at? text = some form)
    (earlier : other ∈ all.takeWhile (· != form)) : other.opens text = false := by
  rw [at?] at here
  revert here earlier
  induction all with
  | nil =>
      intro here
      cases here
  | cons first forms ih =>
      intro here earlier
      rw [List.find?_cons] at here
      cases opens : first.opens text with
      | true =>
          rw [opens] at here
          cases here
          simp at earlier
      | false =>
          rw [opens] at here
          rw [List.takeWhile_cons] at earlier
          split at earlier
          · rcases List.mem_cons.mp earlier with rfl | earlier
            · exact opens
            · exact ih here earlier
          · exact absurd earlier List.not_mem_nil

/-- A numeral is read if and only if it consists of digits and its number fits into 64 bits. -/
theorem readNumeral?_eq_some_iff {numeral : List Char} {value : UInt64} :
    readNumeral? numeral = some value ↔
      numeral ≠ [] ∧ (∀ c ∈ numeral, c.isDigit = true) ∧
        Nat.ofDigitChars 10 numeral 0 < 2 ^ 64 ∧
          value = UInt64.ofNat (Nat.ofDigitChars 10 numeral 0) := by
  have bound : Nat.ofDigitChars 10 numeral 0 ≤ maxNumber ↔
      Nat.ofDigitChars 10 numeral 0 < 2 ^ 64 := by
    rw [maxNumber, UInt64.size]
    omega
  simp only [readNumeral?, bound, List.all_eq_true]
  split
  · next digits =>
      split
      · next small =>
          rw [Option.some.injEq, eq_comm]
          exact ⟨fun same => ⟨digits.1, digits.2, small, same⟩, fun ⟨_, _, _, same⟩ => same⟩
      · next big => exact iff_of_false nofun fun ⟨_, _, small, _⟩ => big small
  · next other =>
      refine iff_of_false nofun ?_
      rintro ⟨nonempty, digits, -⟩
      exact other ⟨nonempty, digits⟩

/-- The name behind a bracket starts with the capital letter that the opening has seen. -/
theorem capital_of_bracket (capital : headIs Char.isUpper (dropBracket (dropGap text)) = true)
    {inner : List Char} (opened : After text ('(' :: inner)) {name : String}
    (named : Word inner name rest) : headIs Char.isUpper name.toList = true := by
  rwa [dropGap_of_after rfl opened, dropBracket, named.dropGap_eq,
    headIs_append named.1.1] at capital

/-- Without a bracket the name stands where the opening has seen the capital letter. -/
theorem capital_of_word (capital : headIs Char.isUpper (dropBracket (dropGap text)) = true)
    (absent : ∀ tail, ¬ After text ('(' :: tail)) {name : String} (named : Word text name rest) :
    headIs Char.isUpper name.toList = true := by
  rwa [dropBracket_of_not_after absent, named.dropGap_eq, headIs_append named.1.1] at capital

/-- What the body of constructors reads is derived, with its brackets or without. -/
theorem derives_of_ctrBody (capital : headIs Char.isUpper (dropBracket (dropGap text)) = true)
    (derived : ReadsDerived text.length) {term : Term}
    (done : (ctr.body Parser.term (start text)).outcome = .done term d) :
    ∃ rest, d = start rest ∧ Derives text (.term term) rest := by
  obtain ⟨opened, e, bracket, done⟩ := outcome_bind_eq_done.mp done
  rw [outcome_tokenChar_start rfl] at bracket
  cases opened with
  | true =>
      obtain ⟨s₁, opened, rfl⟩ := bracket
      obtain ⟨name, s₂, named, done⟩ := outcome_requireName_bind.mp done
      have capital := capital_of_bracket capital opened named
      have := opened.length_lt
      have := named.length_lt
      obtain ⟨args, e, read, done⟩ := outcome_bind_eq_done.mp done
      obtain ⟨s₃, rest, rfl, inner, closed⟩ := derives_of_manyUntil_term derived (by omega) read
      cases done
      exact ⟨rest, rfl, .ctr opened named capital inner closed⟩
  | false =>
      obtain ⟨absent, rfl⟩ := bracket
      obtain ⟨name, rest, named, done⟩ := outcome_requireName_bind.mp done
      cases done
      exact ⟨rest, rfl, .bareCtr named (capital_of_word capital absent named)⟩

/-- Where the form of a text is an application, arguments start behind the bracket: the forms tried
before have refused a constructor and an operator there. -/
theorem startsArguments_of_at? (here : at? (dropGap text) = some app) {inner : List Char}
    (opened : After text ('(' :: inner)) : StartsArguments inner := by
  have bracket := dropGap_of_after rfl opened
  have notCtr := opens_eq_false_of_at? here (by decide : ctr ∈ all.takeWhile (· != app))
  have notOp2 := opens_eq_false_of_at? here (by decide : op2 ∈ all.takeWhile (· != app))
  intro c tail first significant
  have known := (after_iff_dropGap_eq significant).mp first
  rw [bracket] at notCtr notOp2
  simp only [opens, dropBracket, known] at notCtr notOp2
  exact ⟨by simpa [headIs] using notCtr, by simpa [headIs] using notOp2⟩

/-- What the body of applications reads is derived. -/
theorem derives_of_appBody (here : at? (dropGap text) = some app)
    (derived : ReadsDerived text.length) {term : Term}
    (done : (app.body Parser.term (start text)).outcome = .done term d) :
    ∃ rest, d = start rest ∧ Derives text (.term term) rest := by
  obtain ⟨terms, read, shape⟩ := outcome_map_eq_done.mp done
  obtain ⟨s₁, opened, read⟩ := (outcome_requireChar_bind rfl).mp read
  have := opened.length_lt
  obtain ⟨s₂, rest, rfl, inner, closed⟩ := derives_of_manyUntil_term derived (by omega) read
  cases terms with
  | nil =>
      cases inner
      cases shape
      exact ⟨rest, rfl, .unit opened closed⟩
  | cons func args =>
      cases shape
      exact ⟨rest, rfl, .app opened (startsArguments_of_at? here opened) inner closed⟩

/-- What the body of character literals reads is derived. -/
theorem derives_of_chrBody {term : Term} (done : (chrBody (start text)).outcome = .done term d) :
    ∃ rest, d = start rest ∧ Derives text (.term term) rest := by
  obtain ⟨s₁, opened, done⟩ := (outcome_requireChar_bind rfl).mp done
  obtain ⟨found, e, peeked, done⟩ := outcome_bind_eq_done.mp done
  cases peeked
  cases s₁ with
  | nil => contradiction
  | cons c s₂ =>
      -- any character may stand between the quotes, a quote or a newline too
      obtain ⟨_, _, advanced, done⟩ := outcome_bind_eq_done.mp done
      cases advanced
      obtain ⟨closed, e, closing, done⟩ := outcome_bind_eq_done.mp done
      cases closed with
      | false => contradiction
      | true =>
          rw [Cursor.advance_start, exactly_start] at closing
          split at closing
          · next here =>
              obtain ⟨rest, rfl⟩ := List.isPrefixOf_iff_prefix.mp here
              cases closing
              cases done
              exact ⟨rest, rfl, .chr opened⟩
          · cases closing

/-- What the body of string literals reads is derived, with its last delimiter or without. -/
theorem derives_of_strBody (opens : headIs isDelimiter (dropGap text) = true) {term : Term}
    (done : (strBody (start text)).outcome = .done term d) :
    ∃ rest, d = start rest ∧ Derives text (.term term) rest := by
  cases shape : dropGap text with
  | nil =>
      rw [shape] at opens
      contradiction
  | cons delimiter after =>
      have isDelimiter : isDelimiter delimiter = true := by simpa [shape, headIs] using opens
      have quoted : After text (delimiter :: after) := by
        rw [← shape]
        refine (after_iff_dropGap_eq (significant_dropGap ?_)).mpr rfl
        simp [shape]
      obtain ⟨content, rest, pure, rfl⟩ | pure := closed_or_open delimiter after
      · rw [strBody_start_of_closed pure shape] at done
        cases done
        exact ⟨rest, rfl, .str isDelimiter pure quoted⟩
      · rw [strBody_start_of_open pure shape] at done
        cases done
        exact ⟨[], rfl, .openStr isDelimiter pure quoted⟩

/-- What a body reads is derived, if the text has its form and its subterms are derived. -/
theorem derives_of_body {form : Form} (here : at? (dropGap text) = some form)
    (derived : ReadsDerived text.length) {term : Term}
    (done : (form.body Parser.term (start text)).outcome = .done term d) :
    ∃ rest, d = start rest ∧ Derives text (.term term) rest := by
  cases form with
  | letIn =>
      obtain ⟨s₁, mark, done⟩ := (outcome_require_bind significant_letMark).mp done
      obtain ⟨name, s₂, binder, done⟩ := outcome_requireName_bind.mp done
      obtain ⟨s₃, equals, done⟩ := (outcome_requireChar_bind rfl).mp done
      have := mark.length_le
      have := binder.length_lt
      have := equals.length_lt
      rw [List.length_append] at *
      obtain ⟨expr, s₄, shorter, value, done⟩ := derived.exists_of_bind (by omega) done
      obtain ⟨s₅, semicolon, done⟩ := (outcome_requireChar_bind rfl).mp done
      have := semicolon.length_lt
      obtain ⟨body, rest, shorter, scope, done⟩ := derived.exists_of_bind (by omega) done
      cases done
      exact ⟨rest, rfl, .letIn mark binder equals value semicolon scope⟩
  | dup =>
      obtain ⟨s₁, mark, done⟩ := (outcome_require_bind significant_dupMark).mp done
      obtain ⟨first, s₂, binder, done⟩ := outcome_requireName_bind.mp done
      obtain ⟨second, s₃, binder', done⟩ := outcome_requireName_bind.mp done
      obtain ⟨s₄, equals, done⟩ := (outcome_requireChar_bind rfl).mp done
      have := mark.length_le
      have := binder.length_lt
      have := binder'.length_lt
      have := equals.length_lt
      rw [List.length_append] at *
      obtain ⟨expr, s₅, shorter, value, done⟩ := derived.exists_of_bind (by omega) done
      obtain ⟨s₆, semicolon, done⟩ := (outcome_requireChar_bind rfl).mp done
      have := semicolon.length_lt
      obtain ⟨body, rest, shorter, scope, done⟩ := derived.exists_of_bind (by omega) done
      cases done
      exact ⟨rest, rfl, .dup mark binder binder' equals value semicolon scope⟩
  | lam =>
      obtain ⟨found, e, readMark, done⟩ := outcome_bind_eq_done.mp done
      cases found with
      | false => contradiction
      | true =>
          obtain ⟨mark, s₁, isMark, marked, rfl⟩ := outcome_lamHead_start readMark rfl
          obtain ⟨name, s₂, binder, done⟩ := outcome_requireName_bind.mp done
          have := marked.length_lt
          have := binder.length_lt
          obtain ⟨body, rest, shorter, scope, done⟩ := derived.exists_of_bind (by omega) done
          cases done
          exact ⟨rest, rfl, .lam isMark marked binder scope⟩
  | op2 =>
      obtain ⟨s₁, opened, done⟩ := (outcome_requireChar_bind rfl).mp done
      obtain ⟨oper, s₂, symbol, done⟩ := outcome_operReader_bind.mp done
      have := opened.length_lt
      have := symbol.1.length_le
      rw [List.length_append] at *
      obtain ⟨left, s₃, shorter, first, done⟩ := derived.exists_of_bind (by omega) done
      obtain ⟨right, s₄, shorter, second, done⟩ := derived.exists_of_bind (by omega) done
      obtain ⟨rest, closed, done⟩ := (outcome_requireChar_bind rfl).mp done
      cases done
      exact ⟨rest, rfl, .op2 opened symbol first second closed⟩
  | ctr => exact derives_of_ctrBody (opens_of_at? here) derived done
  | app => exact derives_of_appBody here derived done
  | num =>
      obtain ⟨_, _, atStart, done⟩ := outcome_bind_eq_done.mp done
      cases atStart
      obtain ⟨numeral, rest, named, done⟩ := outcome_requireName_bind.mp done
      cases read : readNumeral? numeral.toList with
      | none =>
          rw [read] at done
          contradiction
      | some value =>
          rw [read] at done
          obtain ⟨-, digits, small, rfl⟩ := readNumeral?_eq_some_iff.mp read
          cases done
          exact ⟨rest, rfl, .num named digits small⟩
  | chr => exact derives_of_chrBody done
  | str => exact derives_of_strBody (opens_of_at? here) done
  | lst =>
      obtain ⟨items, read, shape⟩ := outcome_map_eq_done.mp done
      obtain ⟨s₁, opened, read⟩ := (outcome_requireChar_bind rfl).mp read
      have := opened.length_lt
      obtain ⟨s₂, rest, rfl, inner, closed⟩ := derives_of_manyUntil_item derived (by omega) read
      cases shape
      exact ⟨rest, rfl, .lst opened inner closed⟩
  | var =>
      have small : headIs startsVar (dropGap text) = true := opens_of_at? here
      have notLet : letMark.isPrefixOf (dropGap text) = false :=
        opens_eq_false_of_at? here (by decide : letIn ∈ all.takeWhile (· != var))
      have notDup : dupMark.isPrefixOf (dropGap text) = false :=
        opens_eq_false_of_at? here (by decide : dup ∈ all.takeWhile (· != var))
      obtain ⟨name, read, shape⟩ := outcome_map_eq_done.mp done
      obtain ⟨rest, named, rfl⟩ := outcome_requireName_start.mp read
      obtain ⟨isName, -, known⟩ := word_iff.mp named
      rw [known, Bool.eq_false_iff, ne_eq, List.isPrefixOf_iff_prefix] at notLet notDup
      rw [known, headIs_append isName.1] at small
      cases shape
      exact ⟨rest, rfl, .var named small notLet notDup⟩

end Form

/-- Whatever is read is derived. -/
theorem readsDerived (length : Nat) : ReadsDerived length := by
  induction length with
  | zero => exact fun _ _ _ short => absurd short (Nat.not_lt_zero _)
  | succ length ih =>
      intro text term d short done
      -- subterms are read from shorter texts, so they are derived by induction
      have derived : ReadsDerived text.length := fun _ _ _ shorter =>
        ih _ _ _ (Nat.lt_of_lt_of_le shorter (Nat.le_of_lt_succ short))
      have takes := takesText_term _ _ _ done
      rw [term_eq_body, Cursor.rest_start] at done
      split at done
      · next form here =>
          obtain ⟨rest, rfl, derivation⟩ := Form.derives_of_body here derived done
          exact ⟨rest, rfl, takes, derivation⟩
      · contradiction

/-- A term that is read from a text is derived from it, up to the place where the reader stops. -/
theorem exists_derives_of_done {term : Term}
    (done : (Parser.term (start text)).outcome = .done term d) :
    ∃ rest, d = start rest ∧ Derives text (.term term) rest := by
  obtain ⟨rest, rfl, -, derivation⟩ :=
    readsDerived (text.length + 1) _ _ _ (Nat.lt_succ_self _) done
  exact ⟨rest, rfl, derivation⟩

/-! ## What is derived is read -/

/-- A sequence goes on after a part that is done. -/
theorem outcome_bind_of_done {α β : Type} {first : Parser α} {next : α → Parser β} {c e : Cursor}
    {value : α} (done : (first c).outcome = .done value e) :
    ((first >>= next) c).outcome = (next value e).outcome := by
  rw [bind_apply]
  rcases reply : first c with ⟨trace, outcome⟩
  rw [reply] at done
  cases done
  rfl

namespace Form

/-- A bracket opens a constructor, an operation or an application, by what stands behind it. -/
theorem at?_bracket (inner : List Char) :
    at? ('(' :: inner) =
      if headIs Char.isUpper (dropGap inner) then some ctr
      else if headIs operatorChars.contains (dropGap inner) then some op2
      else some app := by
  have notLet : letMark.isPrefixOf ('(' :: inner) = false := rfl
  have notDup : dupMark.isPrefixOf ('(' :: inner) = false := rfl
  have notLambda : headIs (· == 'λ') ('(' :: inner) = false := rfl
  have notAt : headIs (· == '@') ('(' :: inner) = false := rfl
  have bracket : headIs (· == '(') ('(' :: inner) = true := rfl
  simp only [at?, all, List.find?_cons, opens, notLet, notDup, notLambda, notAt, bracket,
    dropBracket, Bool.or_self, Bool.true_and]
  cases headIs Char.isUpper (dropGap inner) <;>
    cases headIs operatorChars.contains (dropGap inner) <;> rfl

/-- A name tells its form by its first character, unless it is a keyword. -/
theorem at?_name {name : String} {rest : List Char} (isName : IsName name)
    (notLet : ¬ letMark <+: name.toList ++ rest) (notDup : ¬ dupMark <+: name.toList ++ rest) :
    at? (name.toList ++ rest) =
      if headIs Char.isUpper name.toList then some ctr
      else if headIs Char.isDigit name.toList then some num
      else if headIs startsVar name.toList then some var
      else none := by
  obtain ⟨c, others, shape, nameChar⟩ := isName.exists_eq_cons
  rw [shape, List.cons_append] at notLet notDup
  have notBracket : c ≠ '(' := by
    rintro rfl
    exact absurd nameChar (by decide)
  rw [shape, List.cons_append, at?_cons notBracket notLet notDup, at?_singleton nameChar]
  rfl

/-- A name whose first character starts no keyword is no keyword. -/
theorem not_mark_prefix {test : Char → Bool} {name : String} (rest : List Char)
    (isName : IsName name) (first : headIs test name.toList = true) (notL : test 'l' = false)
    (notD : test 'd' = false) :
    ¬ letMark <+: name.toList ++ rest ∧ ¬ dupMark <+: name.toList ++ rest := by
  obtain ⟨c, others, shape, -⟩ := isName.exists_eq_cons
  have passes : test c = true := by simpa [headIs, shape] using first
  rw [shape]
  constructor
  · intro mark
    rw [← (List.cons_prefix_cons.mp mark).1, notL] at passes
    exact absurd passes Bool.false_ne_true
  · intro mark
    rw [← (List.cons_prefix_cons.mp mark).1, notD] at passes
    exact absurd passes Bool.false_ne_true

/-- Either spelling of the mark of an abstraction is read after a gap. -/
theorem outcome_lamHead_of_after {mark : Char} (isMark : mark = 'λ' ∨ mark = '@')
    (marked : After text (mark :: rest)) :
    (lamHead (start text)).outcome = .done true (start rest) := by
  rcases isMark with rfl | rfl
  · exact (outcome_bind_of_done (outcome_tokenChar_of_after rfl marked)).trans rfl
  · have absent : ∀ tail, ¬ After text ('λ' :: tail) :=
      marked.not_after_cons rfl rfl (by decide)
    refine (outcome_bind_of_done
      (outcome_tokenChar_of_not_after rfl absent)).trans ?_
    exact outcome_tokenChar_of_after rfl marked

/-- A name is no bracket. -/
theorem not_after_bracket {name : String} (named : Word text name rest) (tail : List Char) :
    ¬ After text ('(' :: tail) :=
  fun bracket => named.1.append_ne_bracket
    (named.dropGap_eq.symm.trans (dropGap_of_after rfl bracket))

/-- A bracket with an operator behind it opens an operation. -/
theorem at?_bracket_of_symbol {oper : Oper} (symbol : Symbol text oper rest) :
    at? ('(' :: text) = some op2 := by
  obtain ⟨c, others, shape, isOperator, -⟩ := oper.exists_symbol_eq_cons
  have notUpper : ∀ c ∈ operatorChars, c.isUpper = false := by
    simpa using List.all_eq_true.mp (rfl : operatorChars.all (!Char.isUpper ·) = true)
  rw [at?_bracket, (symbol_iff.mp symbol).2, shape]
  rw [if_neg (by simpa [headIs] using notUpper c isOperator), if_pos (by simpa [headIs])]

/-- A bracket opens an application where neither a constructor nor an operator stands behind it. -/
theorem at?_bracket_of_startsArguments (arguments : StartsArguments text) :
    at? ('(' :: text) = some app := by
  have refused : headIs Char.isUpper (dropGap text) = false ∧
      headIs operatorChars.contains (dropGap text) = false := by
    cases shape : dropGap text with
    | nil => exact ⟨rfl, rfl⟩
    | cons c tail =>
        have significant : Significant (c :: tail) := shape ▸ significant_dropGap (by simp [shape])
        obtain ⟨notUpper, notOperator⟩ :=
          arguments c tail ((after_iff_dropGap_eq significant).mpr shape) significant
        exact ⟨notUpper, by simpa [headIs] using notOperator⟩
  rw [at?_bracket, refused.1, refused.2]
  rfl

/-- A digit is no capital letter, and what starts a variable is neither. -/
theorem kind_of_isNameChar {c : Char} (nameChar : isNameChar c = true) :
    (c.isDigit = true → c.isUpper = false) ∧
      (startsVar c = true → c.isUpper = false ∧ c.isDigit = false) := by
  obtain ⟨code, rfl⟩ := exists_code_of_isNameChar nameChar
  revert code
  decide +kernel

/-- Digits make a number. -/
theorem at?_numeral {name : String} {rest : List Char} (isName : IsName name)
    (digits : ∀ c ∈ name.toList, c.isDigit = true) : at? (name.toList ++ rest) = some num := by
  obtain ⟨c, others, shape, nameChar⟩ := isName.exists_eq_cons
  have first : c.isDigit = true := digits c (shape ▸ List.mem_cons_self)
  have isDigit : headIs Char.isDigit name.toList = true := by rwa [shape]
  obtain ⟨notLet, notDup⟩ := not_mark_prefix rest isName isDigit rfl rfl
  rw [at?_name isName notLet notDup, shape]
  simp only [headIs, List.head?_cons, Option.any_some, first,
    (kind_of_isNameChar nameChar).1 first]
  rfl

/-- A name that starts like a variable and is no keyword is a variable. -/
theorem at?_var {name : String} {rest : List Char} (isName : IsName name)
    (small : headIs startsVar name.toList = true) (notLet : ¬ letMark <+: name.toList ++ rest)
    (notDup : ¬ dupMark <+: name.toList ++ rest) : at? (name.toList ++ rest) = some var := by
  rw [at?_name isName notLet notDup]
  obtain ⟨c, others, shape, nameChar⟩ := isName.exists_eq_cons
  have first : startsVar c = true := by simpa [headIs, shape] using small
  obtain ⟨notUpper, notDigit⟩ := (kind_of_isNameChar nameChar).2 first
  rw [shape]
  simp only [headIs, List.head?_cons, Option.any_some, first, notUpper, notDigit]
  rfl

/-- A delimiter opens a string literal. -/
theorem at?_delimiter {delimiter : Char} (rest : List Char)
    (isDelimiter : isDelimiter delimiter = true) :
    Significant (delimiter :: rest) ∧ at? (delimiter :: rest) = some str := by
  rcases Bool.or_eq_true_iff.mp isDelimiter with double | back
  · obtain rfl := eq_of_beq double
    exact ⟨significant_cons rfl, rfl⟩
  · obtain rfl := eq_of_beq back
    exact ⟨significant_cons rfl, rfl⟩

end Form

/-- Where a term is read, the text has a form. -/
theorem exists_form_of_done {term : Term}
    (done : (Parser.term (start text)).outcome = .done term d) :
    ∃ form, Form.at? (dropGap text) = some form := by
  cases here : Form.at? (dropGap text) with
  | some form => exact ⟨form, rfl⟩
  | none =>
      rw [term_eq_body, Cursor.rest_start, here] at done
      contradiction

/-- Where a term is read, no closing bracket and no comma stands. -/
theorem not_after_of_done {c : Char} (closes : c = ')' ∨ c = ']' ∨ c = ',') {term : Term}
    (done : (Parser.term (start text)).outcome = .done term d) (tail : List Char) :
    ¬ After text (c :: tail) := by
  intro after
  obtain ⟨form, here⟩ := exists_form_of_done done
  rcases closes with rfl | rfl | rfl <;>
    (rw [dropGap_of_after rfl after] at here
     contradiction)

/-- Where a term is read, something stands after the gap. -/
theorem dropGap_ne_nil_of_done {term : Term}
    (done : (Parser.term (start text)).outcome = .done term d) : dropGap text ≠ [] := by
  intro empty
  obtain ⟨form, here⟩ := exists_form_of_done done
  rw [empty] at here
  contradiction

/-- What the reader does with a phrase: a term is read, and terms or items are read up to the
bracket that closes them. Items never start with a comma. -/
def Accepted : List Char → Phrase → List Char → Prop
  | text, .term term, rest => (Parser.term (start text)).outcome = .done term (start rest)
  | text, .terms terms, mid => ∀ rest number, After mid (')' :: rest) →
      (manyUntilFrom (.token [')']) (fun _ => Parser.term) number (start text)).outcome =
        .done terms (start rest)
  | text, .items items, mid => ∀ rest number, After mid (']' :: rest) →
      (∀ tail, ¬ After text (',' :: tail)) ∧
        (manyUntilFrom (.token [']']) (fun _ => Form.lstItem Parser.term) number
          (start text)).outcome = .done items (start rest)

/-- A term in the form that its text has is read by the body of that form. -/
theorem accepted_of_body (form : Form) (here : Form.at? (dropGap text) = some form) {term : Term}
    (done : (form.body Parser.term (start text)).outcome = .done term (start rest)) :
    Accepted text (.term term) rest := by
  rw [Accepted, outcome_term here, done]

/-- An item without a comma after it is read as its term is. -/
theorem outcome_lstItem_of_absent {item : Term}
    (first : (Parser.term (start text)).outcome = .done item (start rest))
    (noComma : ∀ tail, ¬ After rest (',' :: tail)) :
    (Form.lstItem Parser.term (start text)).outcome = .done item (start rest) := by
  refine (outcome_bind_of_done first).trans ?_
  exact (outcome_bind_of_done
    (outcome_tokenChar_of_not_after rfl noComma)).trans rfl

/-- The comma after an item is read with it. -/
theorem outcome_lstItem_of_comma {mid : List Char} {item : Term}
    (first : (Parser.term (start text)).outcome = .done item (start mid))
    (comma : After mid (',' :: rest)) :
    (Form.lstItem Parser.term (start text)).outcome = .done item (start rest) := by
  refine (outcome_bind_of_done first).trans ?_
  exact (outcome_bind_of_done (outcome_tokenChar_of_after rfl comma)).trans rfl

/-- Whatever is derived is read. -/
theorem Derives.accepted {phrase : Phrase} (derivation : Derives text phrase rest) :
    Accepted text phrase rest := by
  -- for each form: no form before it accepts the text, and its body reads part after part
  induction derivation with
  | letIn mark binder equals _ semicolon _ value scope =>
      have known := (after_iff_dropGap_eq (Form.significant_letMark _)).mp mark
      refine accepted_of_body .letIn ?_ ?_
      · rw [known]
        rfl
      · refine (outcome_require_bind Form.significant_letMark).mpr ⟨_, mark, ?_⟩
        refine outcome_requireName_bind.mpr ⟨_, _, binder, ?_⟩
        refine (outcome_requireChar_bind rfl).mpr ⟨_, equals, ?_⟩
        refine (outcome_bind_of_done value).trans ?_
        refine (outcome_requireChar_bind rfl).mpr ⟨_, semicolon, ?_⟩
        exact outcome_bind_of_done scope
  | dup mark binder binder' equals _ semicolon _ value scope =>
      have known := (after_iff_dropGap_eq (Form.significant_dupMark _)).mp mark
      refine accepted_of_body .dup ?_ ?_
      · rw [known]
        rfl
      · refine (outcome_require_bind Form.significant_dupMark).mpr ⟨_, mark, ?_⟩
        refine outcome_requireName_bind.mpr ⟨_, _, binder, ?_⟩
        refine outcome_requireName_bind.mpr ⟨_, _, binder', ?_⟩
        refine (outcome_requireChar_bind rfl).mpr ⟨_, equals, ?_⟩
        refine (outcome_bind_of_done value).trans ?_
        refine (outcome_requireChar_bind rfl).mpr ⟨_, semicolon, ?_⟩
        exact outcome_bind_of_done scope
  | lam isMark marked binder _ scope =>
      refine accepted_of_body .lam ?_ ?_
      · rcases isMark with rfl | rfl <;>
          (rw [dropGap_of_after rfl marked]; rfl)
      · refine (outcome_bind_of_done (Form.outcome_lamHead_of_after isMark marked)).trans ?_
        refine outcome_requireName_bind.mpr ⟨_, _, binder, ?_⟩
        exact outcome_bind_of_done scope
  | bareCtr named capital =>
      obtain ⟨notLet, notDup⟩ := Form.not_mark_prefix _ named.1 capital rfl rfl
      -- the body first looks for a bracket, which is no name
      have absent := Form.not_after_bracket named
      refine accepted_of_body .ctr ?_ ?_
      · rw [named.dropGap_eq, Form.at?_name named.1 notLet notDup, if_pos capital]
      · refine (outcome_bind_of_done
          (outcome_tokenChar_of_not_after rfl absent)).trans ?_
        exact outcome_requireName_bind.mpr ⟨_, _, named, rfl⟩
  | ctr opened named capital _ closed inner =>
      refine accepted_of_body .ctr ?_ ?_
      · rw [dropGap_of_after rfl opened, Form.at?_bracket, named.dropGap_eq,
          Form.headIs_append named.1.1, if_pos capital]
      · refine (outcome_bind_of_done
          (outcome_tokenChar_of_after rfl opened)).trans ?_
        refine outcome_requireName_bind.mpr ⟨_, _, named, ?_⟩
        exact outcome_bind_of_done (inner _ 0 closed)
  | op2 opened symbol _ _ closed first second =>
      refine accepted_of_body .op2 ?_ ?_
      · rw [dropGap_of_after rfl opened]
        exact Form.at?_bracket_of_symbol symbol
      · refine (outcome_requireChar_bind rfl).mpr ⟨_, opened, ?_⟩
        refine outcome_operReader_bind.mpr ⟨_, _, symbol, ?_⟩
        refine (outcome_bind_of_done first).trans ?_
        refine (outcome_bind_of_done second).trans ?_
        exact (outcome_requireChar_bind rfl).mpr ⟨_, closed, rfl⟩
  | unit opened closed =>
      refine accepted_of_body .app ?_ ?_
      · rw [dropGap_of_after rfl opened, Form.at?_bracket,
          dropGap_of_after rfl closed]
        rfl
      · refine outcome_map_eq_done.mpr ⟨[], ?_, rfl⟩
        refine (outcome_requireChar_bind rfl).mpr ⟨_, opened, ?_⟩
        exact (outcome_manyUntilFrom_start (significant_singleton rfl)
          fun _ => takesText_term).mpr (.inl ⟨rfl, _, closed, rfl⟩)
  | @app _ _ _ _ func args opened arguments _ closed inner =>
      refine accepted_of_body .app ?_ ?_
      · rw [dropGap_of_after rfl opened]
        exact Form.at?_bracket_of_startsArguments arguments
      · refine outcome_map_eq_done.mpr ⟨func :: args, ?_, rfl⟩
        exact (outcome_requireChar_bind rfl).mpr ⟨_, opened, inner _ 0 closed⟩
  | num named digits small =>
      have numeral := (Form.readNumeral?_eq_some_iff.mpr ⟨named.1.1, digits, small, rfl⟩)
      refine accepted_of_body .num ?_ ?_
      · rw [named.dropGap_eq]
        exact Form.at?_numeral named.1 digits
      · refine outcome_bind_eq_done.mpr ⟨_, _, rfl, ?_⟩
        refine outcome_requireName_bind.mpr ⟨_, _, named, ?_⟩
        rw [numeral]
        rfl
  | @chr _ rest c quoted =>
      have here : ['\''].isPrefixOf ('\'' :: rest) = true := by simp [List.isPrefixOf]
      refine accepted_of_body .chr ?_ ?_
      · rw [dropGap_of_after rfl quoted]
        rfl
      · refine (outcome_requireChar_bind rfl).mpr ⟨_, quoted, ?_⟩
        refine outcome_bind_eq_done.mpr ⟨some c, _, rfl, ?_⟩
        refine outcome_bind_eq_done.mpr ⟨(), _, rfl, ?_⟩
        rw [Cursor.advance_start]
        refine outcome_bind_eq_done.mpr ⟨true, start rest, ?_, rfl⟩
        rw [exactly_start]
        exact congrArg Reply.outcome (if_pos here)
  | @str _ content rest delimiter isDelimiter pure quoted =>
      obtain ⟨significant, here⟩ := Form.at?_delimiter _ isDelimiter
      have known := (after_iff_dropGap_eq significant).mp quoted
      refine accepted_of_body .str ?_ ?_
      · rw [known]
        exact here
      · exact congrArg Reply.outcome (strBody_start_of_closed pure known)
  | @openStr _ content delimiter isDelimiter pure quoted =>
      obtain ⟨significant, here⟩ := Form.at?_delimiter _ isDelimiter
      have known := (after_iff_dropGap_eq significant).mp quoted
      refine accepted_of_body .str ?_ ?_
      · rw [known]
        exact here
      · exact congrArg Reply.outcome (strBody_start_of_open pure known)
  | lst opened _ closed inner =>
      refine accepted_of_body .lst ?_ ?_
      · rw [dropGap_of_after rfl opened]
        rfl
      · refine outcome_map_eq_done.mpr ⟨_, ?_, rfl⟩
        exact (outcome_requireChar_bind rfl).mpr ⟨_, opened, (inner _ 0 closed).2⟩
  | var named small notLet notDup =>
      refine accepted_of_body .var ?_ ?_
      · rw [named.dropGap_eq]
        exact Form.at?_var named.1 small notLet notDup
      · exact outcome_map_eq_done.mpr ⟨_, outcome_requireName_start.mpr ⟨_, named, rfl⟩, rfl⟩
  | noTerms =>
      intro rest number closed
      exact (outcome_manyUntilFrom_start (significant_singleton rfl)
        fun _ => takesText_term).mpr (.inl ⟨rfl, rest, closed, rfl⟩)
  | moreTerms _ _ first others =>
      -- where a term is read the bracket does not stand, so the repetition goes on
      intro rest number closed
      exact (outcome_manyUntilFrom_start (significant_singleton rfl)
        fun _ => takesText_term).mpr (.inr ⟨not_after_of_done (.inl rfl) first,
          dropGap_ne_nil_of_done first, _, _, _, rfl, first, others rest (number + 1) closed⟩)
  | noItems =>
      intro rest number closed
      constructor
      · exact closed.not_after_cons rfl rfl (by decide)
      · exact (outcome_manyUntilFrom_start (significant_singleton rfl)
          fun _ => Form.takesText_lstItem takesText_term).mpr (.inl ⟨rfl, rest, closed, rfl⟩)
  | moreItems _ _ first others =>
      -- what follows the item begins with no comma, so none is taken with it
      intro rest number closed
      obtain ⟨noComma, others⟩ := others rest (number + 1) closed
      have read := outcome_lstItem_of_absent first noComma
      exact ⟨not_after_of_done (.inr (.inr rfl)) first,
        (outcome_manyUntilFrom_start (significant_singleton rfl)
          fun _ => Form.takesText_lstItem takesText_term).mpr
          (.inr ⟨not_after_of_done (.inr (.inl rfl)) first, dropGap_ne_nil_of_done first,
            _, _, _, rfl, read, others⟩)⟩
  | commaItems _ comma _ first others =>
      intro rest number closed
      obtain ⟨-, others⟩ := others rest (number + 1) closed
      have read := outcome_lstItem_of_comma first comma
      exact ⟨not_after_of_done (.inr (.inr rfl)) first,
        (outcome_manyUntilFrom_start (significant_singleton rfl)
          fun _ => Form.takesText_lstItem takesText_term).mpr
          (.inr ⟨not_after_of_done (.inr (.inl rfl)) first, dropGap_ne_nil_of_done first,
            _, _, _, rfl, read, others⟩)⟩

/-! ## The reader and the grammar -/

/-- From the start of a text, exactly the derived terms are read. -/
theorem outcome_term_start_iff {term : Term} :
    (Parser.term (start text)).outcome = .done term (start rest) ↔
      Derives text (.term term) rest := by
  constructor
  · intro done
    obtain ⟨rest', same, derivation⟩ := exists_derives_of_done done
    rwa [Cursor.start_inj.mp same]
  · exact fun derivation => derivation.accepted

namespace Cursor

/-- A place within a text is the start of what is left of it. -/
theorem ofIndex_eq_start {code : List Char} {i : Nat} (within : i ≤ code.length) :
    ofIndex code i = start (code.drop i) := by
  apply eq_start_rest
  simp only [ofIndex]
  omega

/-- Onward from a place of a text are places of that text. -/
theorem Onward.exists_ofIndex {code : List Char} {i : Nat} {d : Cursor}
    (onward : (ofIndex code i).Onward d) : d = ofIndex code (d.index code.length) := by
  obtain ⟨count, rfl⟩ := onward
  rw [advance_ofIndex, index_ofIndex]

end Cursor

/-- Between two places of a text, exactly the derived terms are read. -/
theorem outcome_term_ofIndex_iff {code : List Char} {i j : Nat} {term : Term} :
    (Parser.term (.ofIndex code i)).outcome = .done term (.ofIndex code j) ↔
      DerivesAt code i j term := by
  constructor
  · intro done
    have within : i ≤ code.length := by
      -- beyond the end nothing is left that a term could take
      refine Decidable.byContradiction fun beyond => ?_
      have empty : (Cursor.ofIndex code i).rest = [] := List.drop_eq_nil_of_le (by omega)
      have takes := takesText_term _ _ _ done
      rw [Cursor.remaining_eq, Cursor.remaining_eq, empty] at takes
      exact absurd takes (Nat.not_lt_zero _)
    have within' : j ≤ code.length := by
      have same := (forward_term.onward done).beyond_eq
      simp only [Cursor.ofIndex] at same
      omega
    rw [Cursor.ofIndex_eq_start within, Cursor.ofIndex_eq_start within'] at done
    exact ⟨within, within', outcome_term_start_iff.mp done⟩
  · rintro ⟨within, within', derivation⟩
    rw [Cursor.ofIndex_eq_start within, Cursor.ofIndex_eq_start within']
    exact outcome_term_start_iff.mpr derivation

/-- The reader accepts exactly its grammar: from index `i` of a text it reads a term and stops at
index `j` if and only if the grammar derives that term between the two. -/
theorem reads_iff_derivesAt (code : List Char) (i j : Nat) (term : Term) :
    (∃ d, (Parser.term (.ofIndex code i)).outcome = .done term d ∧ d.index code.length = j) ↔
      DerivesAt code i j term := by
  rw [← outcome_term_ofIndex_iff]
  constructor
  · rintro ⟨d, done, rfl⟩
    rw [done, ← (forward_term.onward done).exists_ofIndex]
  · intro done
    exact ⟨_, done, Cursor.index_ofIndex code j⟩

end Termbook
