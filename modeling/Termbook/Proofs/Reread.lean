import Termbook.Proofs.RoundTrip

/-! # Which terms are read back

A well-named term that is not legible has a place in its layout where a variable is taken for a
keyword, so the term is not read back. The reader does the same at a place whatever the term was
meant to be; hence, where a term is read back, so is each part of it up to where its layout ends. -/

namespace Termbook

open Termbook.Parser
open Cursor (start)

variable {text rest rest' mid : List Char}

/-! ## One reading only -/

/-- At most one name stands in a text. -/
theorem Word.unique {name name' : String} (word : Word text name rest)
    (word' : Word text name' rest') : name = name' ∧ rest = rest' := by
  have done := outcome_requireName_start.mpr ⟨rest, word, rfl⟩
  rw [outcome_requireName_start.mpr ⟨rest', word', rfl⟩] at done
  simp only [Outcome.done.injEq, Cursor.start_inj] at done
  exact ⟨done.1.symm, done.2.symm⟩

/-- At most one term is derived from a text. -/
theorem Derives.unique {term term' : Term} (derivation : Derives text (.term term) rest)
    (derivation' : Derives text (.term term') rest') : term = term' ∧ rest = rest' := by
  have done := outcome_term_start_iff.mpr derivation
  rw [outcome_term_start_iff.mpr derivation'] at done
  simp only [Outcome.done.injEq, Cursor.start_inj] at done
  exact ⟨done.1.symm, done.2.symm⟩

/-- A sequence that reads a term goes on after a derived one. -/
theorem outcome_term_bind {α : Type} {next : Term → Parser α} {value : α} {d : Cursor} :
    ((Parser.term >>= next) (start text)).outcome = .done value d ↔
      ∃ term rest, Derives text (.term term) rest ∧
        (next term (start rest)).outcome = .done value d := by
  constructor
  · intro done
    obtain ⟨term, rest, -, derivation, done⟩ :=
      (readsDerived (text.length + 1)).exists_of_bind (Nat.lt_succ_self _) done
    exact ⟨term, rest, derivation, done⟩
  · rintro ⟨term, rest, derivation, done⟩
    exact outcome_bind_eq_done.mpr ⟨term, start rest, derivation.accepted, done⟩

/-- A derived term is read by the body of the form that its text has. -/
theorem Derives.outcome_body (form : Form) {term : Term}
    (derivation : Derives text (.term term) rest) (here : Form.at? (dropGap text) = some form) :
    (form.body Parser.term (start text)).outcome = .done term (start rest) := by
  rw [← outcome_term here]
  exact outcome_term_start_iff.mpr derivation

/-! ## Applications and variables -/

/-- Applications are derived from brackets that open neither a constructor nor an operation. -/
theorem Derives.exists_bracket_of_app {func argm : Term}
    (derivation : Derives text (.term (.app func argm)) rest) :
    ∃ tail, After text ('(' :: tail) ∧ StartsArguments tail := by
  generalize isApp : Phrase.term (.app func argm) = phrase at derivation
  cases derivation with
  | app opened arguments => exact ⟨_, opened, arguments⟩
  | @str _ content => cases content <;> cases isApp
  | @openStr _ content => cases content <;> cases isApp
  | @lst _ _ _ _ items => cases items <;> cases isApp
  | _ => cases isApp

/-- A variable is derived from a name that is no keyword, or from brackets. -/
theorem Derives.word_of_var {name : String} (derivation : Derives text (.term (.var name)) rest)
    (noBracket : ∀ tail, ¬ After text ('(' :: tail)) :
    Word text name rest ∧ ¬ Form.letMark <+: name.toList ++ rest ∧
      ¬ Form.dupMark <+: name.toList ++ rest := by
  generalize isVar : Phrase.term (.var name) = phrase at derivation
  cases derivation with
  | var named _ notLet notDup =>
      cases isVar
      exact ⟨named, notLet, notDup⟩
  | app opened => exact absurd opened (noBracket _)
  | @str _ content => cases content <;> cases isVar
  | @openStr _ content => cases content <;> cases isVar
  | @lst _ _ _ _ items => cases items <;> cases isVar
  | _ => cases isVar

namespace Term

/-! ## What stands on a spine -/

/-- A term on arguments has the spine of the term before the arguments. -/
theorem spineOnto_applyTo (func : Term) (args rest : List Term) :
    (func.applyTo args).spineOnto rest = func.spineOnto (args ++ rest) := by
  induction args generalizing func with
  | nil => rfl
  | cons arg args ih => exact ih (func.app arg)

/-- Only applications have layouts in brackets that open neither a constructor nor an operation. -/
theorem not_startsArguments_of_layout {term : Term} (named : term.WellNamed)
    (notApp : ∀ func argm, term ≠ app func argm) {tail : List Char}
    (here : After text (term.plain.toList ++ rest)) (opened : After text ('(' :: tail)) :
    ¬ StartsArguments tail := by
  obtain ⟨c, others, shape, solid, -⟩ := named.exists_plain_eq_cons rest
  rw [shape] at here
  have same := here.unique (significant_cons solid) (significant_cons rfl) opened
  rw [← shape] at same
  cases named with
  | var named =>
      rw [plain] at same
      exact absurd same named.1.append_ne_bracket
  | @num value =>
      rw [plain] at same
      exact absurd same (isName_numeral value.toNat).append_ne_bracket
  | dup =>
      rw [plain_dup_append] at same
      cases same
  | letIn =>
      rw [plain_letIn_append] at same
      cases same
  | lam =>
      rw [plain_lam_append] at same
      cases same
  | app => exact absurd rfl (notApp _ _)
  | @op2 oper left right =>
      -- a symbol stands behind the bracket
      rw [plain_op2_append] at same
      obtain ⟨c, others, shape, isOperator, -⟩ := oper.exists_symbol_eq_cons
      have significant : Significant (oper.symbol.toList ++ ' ' ::
          (left.plain.toList ++ ' ' :: (right.plain.toList ++ ')' :: rest))) :=
        Oper.significant_symbol fun _ => by simp
      cases same
      intro arguments
      rw [shape] at arguments significant
      exact (arguments c _ (.refl _) significant).2 isOperator
  | @ctr name args named _ =>
      rcases sugar_cases name args with
        ⟨literal, textView⟩ | ⟨textView, items, listView⟩ | ⟨textView, listView⟩
      · obtain ⟨content, -, isLiteral⟩ := Option.bind_eq_some_iff.mp textView
        obtain ⟨delimiter, isDelimiter, -, rfl⟩ := exists_delimiter_of_literal? isLiteral
        rw [plain_of_literal textView, String.toList_ofList] at same
        cases same
        exact absurd isDelimiter (by decide)
      · cases items with
        | nil =>
            rw [plain_list_nil_append _ textView listView] at same
            cases same
        | cons item items =>
            rw [plain_list_cons_append _ textView listView] at same
            cases same
      · -- a capital letter stands behind the bracket
        rw [plain_ctr_append _ textView listView] at same
        obtain ⟨c, others, shape, nameChar⟩ := named.1.exists_eq_cons
        have capital : c.isUpper = true := by simpa [Form.headIs, shape] using named.2
        cases same
        intro arguments
        rw [shape] at arguments
        have upper := (arguments c _ (.refl _) (significant_of_isNameChar _ nameChar)).1
        rw [capital] at upper
        exact absurd upper (by decide)

/-! ## Rows -/

/-- A term is faithful if it is legible wherever it is derived from its own layout. -/
def Faithful (term : Term) : Prop :=
  ∀ ⦃spaced text rest rest'⦄, EndsName rest → (rest.head? = some ' ' ↔ spaced = true) →
    After text (term.plain.toList ++ rest) → Derives text (.term term) rest' →
      term.Legible spaced

/-- A legible term is read up to the end of its layout. -/
theorem Legible.rest_eq {spaced : Bool} {term : Term} (legible : term.Legible spaced)
    (named : term.WellNamed) (ends : EndsName rest) (next : rest.head? = some ' ' → spaced = true)
    (here : After text (term.plain.toList ++ rest)) (derivation : Derives text (.term term) rest') :
    rest' = rest :=
  (derivation.unique ((legible.restored named rest ends next).of_after here)).2

/-- The terms in a row are legible where they are derived from the row. -/
theorem legible_of_derives_row {head : Term} {others : List Term}
    (faithful : ∀ part ∈ head :: others, Faithful part)
    (named : ∀ part ∈ head :: others, part.WellNamed)
    (here : After text (head.plain.toList ++ (led [' '] others ++ ')' :: rest)))
    (derivation : Derives text (.terms (head :: others)) mid) :
    ∀ before part after, head :: others = before ++ part :: after →
      part.Legible (!after.isEmpty) := by
  induction others generalizing head text with
  | nil =>
      intro before part after split
      obtain ⟨rfl, rfl, rfl⟩ : before = [] ∧ head = part ∧ after = [] := by
        cases before with
        | nil => simpa using split
        | cons => simp at split
      cases derivation with
      | moreTerms first _ =>
          exact faithful head List.mem_cons_self (endsName_cons rfl) (by simp) here first
  | cons other others ih =>
      rw [led_cons, List.singleton_append, List.cons_append, List.append_assoc] at here
      cases derivation with
      | moreTerms first more =>
          have legible : head.Legible true :=
            faithful head List.mem_cons_self (endsName_cons rfl) (by simp) here first
          have stop := legible.rest_eq (named head List.mem_cons_self) (endsName_cons rfl)
            (fun _ => rfl) here first
          rw [stop] at more
          have rest := ih (fun part member => faithful part (List.mem_cons_of_mem _ member))
            (fun part member => named part (List.mem_cons_of_mem _ member)) (.space _) more
          intro before part after split
          cases before with
          | nil =>
              cases split
              exact legible
          | cons first before => exact rest before part after (List.cons.inj split).2

/-- The items of a list are legible where they are derived from the list. -/
theorem legible_of_derives_items {head : Term} {others : List Term}
    (faithful : ∀ item ∈ head :: others, Faithful item)
    (named : ∀ item ∈ head :: others, item.WellNamed)
    (here : After text (head.plain.toList ++ (led [',', ' '] others ++ ']' :: rest)))
    (derivation : Derives text (.items (head :: others)) mid) :
    ∀ item ∈ head :: others, item.Legible false := by
  induction others generalizing head text with
  | nil =>
      intro item member
      obtain rfl := List.mem_singleton.mp member
      cases derivation with
      | moreItems first _ | commaItems first _ _ =>
          exact faithful item List.mem_cons_self (endsName_cons rfl) (by simp) here first
  | cons other others ih =>
      have here : After text (head.plain.toList ++ ',' :: ' ' ::
          (other.plain.toList ++ (led [',', ' '] others ++ ']' :: rest))) := by
        simpa [led_cons] using here
      have stop {rest'} (first : Derives text (.term head) rest') :
          head.Legible false ∧ rest' = ',' :: ' ' ::
            (other.plain.toList ++ (led [',', ' '] others ++ ']' :: rest)) := by
        have legible : head.Legible false :=
          faithful head List.mem_cons_self (endsName_cons rfl) (by simp) here first
        exact ⟨legible, legible.rest_eq (named head List.mem_cons_self) (endsName_cons rfl)
          (by simp) here first⟩
      cases derivation with
      | moreItems first more =>
          -- no item begins with the comma that is left then
          rw [(stop first).2] at more
          cases more with
          | moreItems second _ | commaItems second _ _ =>
              exact absurd (.refl _) (not_after_of_done (.inr (.inr rfl)) second.accepted _)
      | commaItems first comma more =>
          rw [(stop first).2] at comma
          obtain ⟨-, rfl⟩ := (After.refl _).cons_unique rfl rfl comma
          have rest := ih (fun item member => faithful item (List.mem_cons_of_mem _ member))
            (fun item member => named item (List.mem_cons_of_mem _ member)) (.space _) more
          intro item member
          rcases List.mem_cons.mp member with rfl | member
          · exact (stop first).1
          · exact rest item member

/-! ## Legibility is needed -/

/-- A variable that is derived from its name is no keyword before a space. -/
theorem faithful_var {name : String} (named : IsVarName name) : Faithful (.var name) := by
  intro spaced text rest rest' ends next here derivation
  have standing : Word text name rest := ⟨named.1, ends, by rwa [plain] at here⟩
  obtain ⟨word, notLet, notDup⟩ := derivation.word_of_var (Form.not_after_bracket standing)
  obtain ⟨-, rfl⟩ := standing.unique word
  refine .var fun isSpaced => ?_
  -- the name and the space after it would make the mark of a keyword
  cases rest with
  | nil =>
      have spaced := next.mpr isSpaced
      contradiction
  | cons c tail =>
      obtain rfl : c = ' ' := by simpa using next.mpr isSpaced
      constructor
      · rintro rfl
        exact notLet ⟨tail, rfl⟩
      · rintro rfl
        exact notDup ⟨tail, rfl⟩

/-- A value and a scope with a semicolon between them are legible where they are derived from their
layouts. -/
theorem legible_of_value_scope {spaced : Bool} {expr body : Term} {s₁ s₂ : List Char}
    (exprNamed : expr.WellNamed) (exprFaithful : Faithful expr) (bodyFaithful : Faithful body)
    (ends : EndsName rest) (next : rest.head? = some ' ' ↔ spaced = true)
    (value : Derives (' ' :: (expr.plain.toList ++ ';' :: ' ' :: (body.plain.toList ++ rest)))
      (.term expr) s₁)
    (semicolon : After s₁ (';' :: s₂)) (scope : Derives s₂ (.term body) rest') :
    expr.Legible false ∧ body.Legible spaced := by
  have legible : expr.Legible false :=
    exprFaithful (endsName_cons rfl) (by simp) (.space _) value
  have stop := legible.rest_eq exprNamed (endsName_cons rfl) (by simp) (.space _) value
  rw [stop] at semicolon
  obtain ⟨-, rfl⟩ := (After.refl _).cons_unique rfl rfl semicolon
  exact ⟨legible, bodyFaithful ends next (.space _) scope⟩

/-- A local definition is faithful if its parts are. -/
theorem faithful_letIn {name : String} {expr body : Term} (binder : IsName name)
    (exprNamed : expr.WellNamed) (exprFaithful : Faithful expr) (bodyFaithful : Faithful body) :
    Faithful (.letIn name expr body) := by
  intro spaced text rest rest' ends next here derivation
  rw [plain_letIn_append] at here
  have known := (after_iff_dropGap_eq (Form.significant_letMark _)).mp here
  have done := derivation.outcome_body .letIn (by rw [known]; rfl)
  obtain ⟨s₁, mark, done⟩ := (outcome_require_bind Form.significant_letMark).mp done
  obtain ⟨name', s₂, word, done⟩ := outcome_requireName_bind.mp done
  obtain ⟨s₃, equals, done⟩ := (outcome_requireChar_bind rfl).mp done
  obtain ⟨expr', s₄, value, done⟩ := outcome_term_bind.mp done
  obtain ⟨s₅, semicolon, done⟩ := (outcome_requireChar_bind rfl).mp done
  obtain ⟨body', s₆, scope, done⟩ := outcome_term_bind.mp done
  cases done
  have atName := List.append_cancel_left (here.unique (Form.significant_letMark _)
    (Form.significant_letMark _) mark)
  subst atName
  obtain ⟨-, rfl⟩ := word.unique ⟨binder, endsName_cons rfl, .refl _⟩
  obtain ⟨-, rfl⟩ := (After.space _).cons_unique rfl rfl equals
  obtain ⟨exprLegible, bodyLegible⟩ :=
    legible_of_value_scope exprNamed exprFaithful bodyFaithful ends next value semicolon scope
  exact .letIn exprLegible bodyLegible

/-- A duplication is faithful if its parts are. -/
theorem faithful_dup {first second : String} {expr body : Term} (binder : IsName first)
    (binder' : IsName second) (exprNamed : expr.WellNamed) (exprFaithful : Faithful expr)
    (bodyFaithful : Faithful body) : Faithful (.dup first second expr body) := by
  intro spaced text rest rest' ends next here derivation
  rw [plain_dup_append] at here
  have known := (after_iff_dropGap_eq (Form.significant_dupMark _)).mp here
  have done := derivation.outcome_body .dup (by rw [known]; rfl)
  obtain ⟨s₁, mark, done⟩ := (outcome_require_bind Form.significant_dupMark).mp done
  obtain ⟨first', s₂, word, done⟩ := outcome_requireName_bind.mp done
  obtain ⟨second', s₃, word', done⟩ := outcome_requireName_bind.mp done
  obtain ⟨s₄, equals, done⟩ := (outcome_requireChar_bind rfl).mp done
  obtain ⟨expr', s₅, value, done⟩ := outcome_term_bind.mp done
  obtain ⟨s₆, semicolon, done⟩ := (outcome_requireChar_bind rfl).mp done
  obtain ⟨body', s₇, scope, done⟩ := outcome_term_bind.mp done
  cases done
  have atName := List.append_cancel_left (here.unique (Form.significant_dupMark _)
    (Form.significant_dupMark _) mark)
  subst atName
  obtain ⟨-, rfl⟩ := word.unique ⟨binder, endsName_cons rfl, .refl _⟩
  obtain ⟨-, rfl⟩ := word'.unique ⟨binder', endsName_cons rfl, .space _⟩
  obtain ⟨-, rfl⟩ := (After.space _).cons_unique rfl rfl equals
  obtain ⟨exprLegible, bodyLegible⟩ :=
    legible_of_value_scope exprNamed exprFaithful bodyFaithful ends next value semicolon scope
  exact .dup exprLegible bodyLegible

/-- An abstraction is faithful if its body is. -/
theorem faithful_lam {name : String} {body : Term} (binder : IsName name)
    (bodyFaithful : Faithful body) : Faithful (.lam name body) := by
  intro spaced text rest rest' ends next here derivation
  rw [plain_lam_append] at here
  have known := dropGap_of_after rfl here
  have done := derivation.outcome_body .lam (by rw [known]; rfl)
  obtain ⟨found, e, readMark, done⟩ := outcome_bind_eq_done.mp done
  rw [Form.outcome_lamHead_of_after (.inl rfl) here] at readMark
  cases readMark
  obtain ⟨name', s₁, word, done⟩ := outcome_requireName_bind.mp done
  obtain ⟨body', s₂, scope, done⟩ := outcome_term_bind.mp done
  cases done
  obtain ⟨-, rfl⟩ := word.unique ⟨binder, endsName_cons rfl, .refl _⟩
  exact .lam (bodyFaithful ends next (.space _) scope)

/-- A binary operation is faithful if its operands are. -/
theorem faithful_op2 {oper : Oper} {left right : Term} (leftNamed : left.WellNamed)
    (leftFaithful : Faithful left) (rightFaithful : Faithful right) :
    Faithful (.op2 oper left right) := by
  intro spaced text rest rest' ends next here derivation
  rw [plain_op2_append] at here
  have known := dropGap_of_after rfl here
  have symbolHere := oper.symbol_before (c := ' ') (by decide)
    (left.plain.toList ++ ' ' :: (right.plain.toList ++ ')' :: rest))
  have done := derivation.outcome_body .op2 (by
    rw [known]
    exact Form.at?_bracket_of_symbol symbolHere)
  obtain ⟨s₁, opened, done⟩ := (outcome_requireChar_bind rfl).mp done
  obtain ⟨oper', s₂, symbol, done⟩ := outcome_operReader_bind.mp done
  obtain ⟨left', s₃, first, done⟩ := outcome_term_bind.mp done
  obtain ⟨right', s₄, second, done⟩ := outcome_term_bind.mp done
  obtain ⟨s₅, closed, done⟩ := (outcome_requireChar_bind rfl).mp done
  cases done
  obtain ⟨-, rfl⟩ := here.cons_unique rfl rfl opened
  have atOperand := symbol.1.unique (Oper.significant_symbol symbol.2.1)
    (Oper.significant_symbol symbolHere.2.1) (.refl _)
  rw [List.append_cancel_left atOperand] at first
  have leftLegible : left.Legible true :=
    leftFaithful (endsName_cons rfl) (by simp) (.space _) first
  have stop := leftLegible.rest_eq leftNamed (endsName_cons rfl) (fun _ => rfl) (.space _) first
  rw [stop] at second
  exact .op2 leftLegible (rightFaithful (endsName_cons rfl) (by simp) (.space _) second)

/-- An application is faithful if the terms on its spine are. -/
theorem faithful_app {func argm : Term} (named : (Term.app func argm).WellNamed)
    (faithful : ∀ part ∈ (Term.app func argm).spine, Faithful part) :
    Faithful (.app func argm) := by
  intro spaced text rest rest' ends next here derivation
  obtain ⟨head, others, spine, -, notApp⟩ := exists_spineOnto_eq_cons (app func argm) []
  rw [← Term.spine] at spine
  have partsNamed : ∀ part ∈ head :: others, part.WellNamed := fun part member =>
    named.of_mem_spine (spine ▸ member)
  have headNamed := partsNamed head List.mem_cons_self
  rw [plain_app_append rest spine] at here
  have known := dropGap_of_after rfl here
  have done := derivation.outcome_body .app (by
    rw [known]
    exact Form.at?_bracket_of_startsArguments (startsArguments_plain_append _ headNamed))
  obtain ⟨terms, read, isTerm⟩ := outcome_map_eq_done.mp done
  obtain ⟨s₁, opened, read⟩ := (outcome_requireChar_bind rfl).mp read
  obtain ⟨-, rfl⟩ := here.cons_unique rfl rfl opened
  obtain ⟨mid, rest'', -, inner, -⟩ :=
    derives_of_manyUntil_term (readsDerived _) (Nat.lt_succ_self _) read
  cases terms with
  | nil => contradiction
  | cons head' others' =>
      -- the first term that is read is no application, so the spine is what is read
      have notApp' : ∀ func argm, head' ≠ app func argm := by
        rintro func argm rfl
        cases inner with
        | moreTerms first _ =>
            obtain ⟨tail, bracket, arguments⟩ := first.exists_bracket_of_app
            exact not_startsArguments_of_layout headNamed notApp (.refl _) bracket arguments
      have spine' : (app func argm).spine = head' :: others' := by
        rw [← isTerm]
        change (head'.applyTo others').spineOnto [] = _
        rw [spineOnto_applyTo, List.append_nil]
        cases head' with
        | app func argm => exact absurd rfl (notApp' func argm)
        | _ => rfl
      rw [spine] at spine' faithful
      cases spine'
      refine .app ?_
      rw [spine]
      exact legible_of_derives_row faithful partsNamed (.refl _) inner

/-- A list is faithful if its items are. -/
theorem faithful_list {name : String} {args items : List Term}
    (named : (Term.ctr name args).WellNamed)
    (noText : (Term.ctr name args).toText?.bind literal? = none)
    (view : (Term.ctr name args).toList? = some items) (faithful : ∀ item ∈ items, Faithful item) :
    Faithful (.ctr name args) := by
  intro spaced text rest rest' ends next here derivation
  refine .list noText view ?_
  cases items with
  | nil => exact nofun
  | cons item items =>
      rw [plain_list_cons_append _ noText view] at here
      have known := dropGap_of_after rfl here
      have done := derivation.outcome_body .lst (by rw [known]; rfl)
      obtain ⟨items', read, isList⟩ := outcome_map_eq_done.mp done
      obtain ⟨s₁, opened, read⟩ := (outcome_requireChar_bind rfl).mp read
      obtain ⟨-, rfl⟩ := here.cons_unique rfl rfl opened
      obtain ⟨mid, rest'', -, inner, -⟩ :=
        derives_of_manyUntil_item (readsDerived _) (Nat.lt_succ_self _) read
      have sameItems : items' = item :: items := by
        rw [← isList, toList?_ofList] at view
        exact Option.some.inj view
      rw [sameItems] at inner
      have itemsNamed : ∀ part ∈ item :: items, part.WellNamed := by
        intro part member
        rw [eq_ofList_of_toList? view] at named
        exact named.of_mem_ofList member
      exact legible_of_derives_items faithful itemsNamed (.refl _) inner

/-- A constructor without sugar is faithful if its arguments are. -/
theorem faithful_ctr {name : String} {args : List Term}
    (named : (Term.ctr name args).WellNamed)
    (noText : (Term.ctr name args).toText?.bind literal? = none)
    (noList : (Term.ctr name args).toList? = none) (faithful : ∀ arg ∈ args, Faithful arg) :
    Faithful (.ctr name args) := by
  intro spaced text rest rest' ends next here derivation
  refine .ctr noText noList ?_
  cases named with
  | ctr isCtrName arguments =>
      cases args with
      | nil => simp
      | cons arg args =>
          rw [plain_ctr_append _ noText noList, led_cons, List.singleton_append,
            List.cons_append, List.append_assoc] at here
          have known := dropGap_of_after rfl here
          have word : Word (name.toList ++ ' ' :: (arg.plain.toList ++ (led [' '] args ++
              ')' :: rest))) name (' ' :: (arg.plain.toList ++ (led [' '] args ++ ')' :: rest))) :=
            ⟨isCtrName.1, endsName_cons rfl, .refl _⟩
          have done := derivation.outcome_body .ctr (by
            rw [known, Form.at?_bracket, word.dropGap_eq, Form.headIs_append isCtrName.1.1,
              if_pos isCtrName.2])
          obtain ⟨found, e, bracket, done⟩ := outcome_bind_eq_done.mp done
          rw [outcome_tokenChar_of_after rfl here] at bracket
          cases bracket
          obtain ⟨name', s₁, word', done⟩ := outcome_requireName_bind.mp done
          obtain ⟨terms, e, read, done⟩ := outcome_bind_eq_done.mp done
          cases done
          obtain ⟨-, rfl⟩ := word'.unique word
          obtain ⟨mid, rest'', -, inner, -⟩ :=
            derives_of_manyUntil_term (readsDerived _) (Nat.lt_succ_self _) read
          exact legible_of_derives_row faithful arguments (.space _) inner

/-- Every well-named term is faithful. -/
theorem WellNamed.faithful {term : Term} (named : term.WellNamed) : Faithful term := by
  cases named with
  | var named => exact faithful_var named
  | num => exact fun _ _ _ _ _ _ _ _ => .num
  | dup binder binder' value scope =>
      exact faithful_dup binder binder' value (WellNamed.faithful value) (WellNamed.faithful scope)
  | letIn binder value scope =>
      exact faithful_letIn binder value (WellNamed.faithful value) (WellNamed.faithful scope)
  | lam binder scope => exact faithful_lam binder (WellNamed.faithful scope)
  | @app func argm function argument =>
      have whole : (app func argm).WellNamed := .app function argument
      refine faithful_app whole fun part member => ?_
      have := sizeOf_lt_of_mem_spine member
      exact WellNamed.faithful (whole.of_mem_spine member)
  | op2 first second =>
      exact faithful_op2 first (WellNamed.faithful first) (WellNamed.faithful second)
  | @ctr name args named arguments =>
      have whole : (ctr name args).WellNamed := .ctr named arguments
      rcases sugar_cases name args with
        ⟨literal, textView⟩ | ⟨textView, items, listView⟩ | ⟨textView, listView⟩
      · exact fun _ _ _ _ _ _ _ _ => .text textView
      · refine faithful_list whole textView listView fun item member => ?_
        have := sizeOf_lt_of_mem_toList? listView member
        rw [eq_ofList_of_toList? listView] at whole
        exact WellNamed.faithful (whole.of_mem_ofList member)
      · refine faithful_ctr whole textView listView fun arg member => ?_
        have := List.sizeOf_lt_of_mem member
        exact WellNamed.faithful (arguments arg member)
termination_by sizeOf term
decreasing_by
  all_goals
    simp only [dup.sizeOf_spec, letIn.sizeOf_spec, lam.sizeOf_spec, op2.sizeOf_spec,
      ctr.sizeOf_spec, app.sizeOf_spec] at *
    omega

/-- A well-named term is read back from its printed text if and only if it is legible. -/
theorem WellNamed.readTerm_render_iff {term : Term} (named : term.WellNamed) :
    (∃ d, (readTerm term.render.toList).outcome = .done term d) ↔ term.Legible false := by
  have nothing : EndsName [] := nofun
  constructor
  · rintro ⟨d, done⟩
    obtain ⟨rest, rfl, derivation⟩ := exists_derives_of_done done
    refine named.faithful nothing (by simp) ?_ derivation
    rw [render_eq_plain, List.append_nil]
    exact .refl _
  · intro legible
    have derivation := legible.derives_render named nothing (by simp)
    rw [List.append_nil] at derivation
    exact ⟨start [], outcome_term_start_iff.mpr derivation⟩

end Term

/-! ## Reading, printing and reading again -/

/-- What is read from any text is read again from its printed text if and only if it is legible:
in its layout no variable called `let` or `dup` has a space right after it. -/
theorem reread_iff_legible (text : List Char) (term : Term) (d : Cursor)
    (read : (readTerm text).outcome = .done term d) :
    (∃ e, (readTerm term.render.toList).outcome = .done term e) ↔ term.Legible false := by
  obtain ⟨rest, -, -, derivation⟩ := readsDerived (text.length + 1) _ _ _ (Nat.lt_succ_self _) read
  have named : term.WellNamed := derivation.wellNamed
  exact named.readTerm_render_iff

/-- A variable called like a keyword is read again where no space follows it. -/
theorem reread_iff_legible_lam :
    (readTerm ['@', 'x', ' ', 'l', 'e', 't']).outcome = .done (.lam "x" (.var "let")) (start []) ∧
      (Term.lam "x" (.var "let")).Legible false ∧
      ∃ e, (readTerm (Term.lam "x" (.var "let")).render.toList).outcome =
        .done (.lam "x" (.var "let")) e := by
  have body : Derives [' ', 'l', 'e', 't'] (.term (.var "let")) [] :=
    .var ⟨by decide, nofun, .space _⟩ (by decide) (by decide) (by decide)
  have derivation : Derives ['@', 'x', ' ', 'l', 'e', 't'] (.term (.lam "x" (.var "let"))) [] :=
    .lam (.inr rfl) (.refl _) ⟨by decide, endsName_cons rfl, .refl _⟩ body
  have read := outcome_term_start_iff.mpr derivation
  have legible : (Term.lam "x" (.var "let")).Legible false := .lam (.var nofun)
  exact ⟨read, legible, (reread_iff_legible _ _ _ read).mpr legible⟩

/-- A variable called `let` with a tab after it is read, but is printed with a space after it, and
so is not read again. -/
theorem let_before_tab_not_reread :
    (readTerm ['(', 'l', 'e', 't', '\t', 'x', ')']).outcome =
        .done (.app (.var "let") (.var "x")) (start []) ∧
      ¬ ∃ e, (readTerm (Term.app (.var "let") (.var "x")).render.toList).outcome =
        .done (.app (.var "let") (.var "x")) e := by
  have func : Derives ['l', 'e', 't', '\t', 'x', ')'] (.term (.var "let")) ['\t', 'x', ')'] :=
    .var ⟨by decide, endsName_cons rfl, .refl _⟩ (by decide) (by decide) (by decide)
  have tab : IsGap ['\t'] := .blank (by decide) .nil
  have argm : Derives ['\t', 'x', ')'] (.term (.var "x")) [')'] :=
    .var ⟨by decide, endsName_cons rfl, ⟨_, tab, rfl⟩⟩ (by decide) (by decide) (by decide)
  have arguments : StartsArguments ['l', 'e', 't', '\t', 'x', ')'] := by
    intro c tail after significant
    have same := (After.refl _).unique (significant_cons rfl) significant after
    cases same
    decide
  have derivation : Derives ['(', 'l', 'e', 't', '\t', 'x', ')']
      (.term (.app (.var "let") (.var "x"))) [] :=
    .app (.refl _) arguments (.moreTerms func (.moreTerms argm .noTerms)) (.refl _)
  have named : (Term.app (.var "let") (.var "x")).WellNamed := derivation.wellNamed
  refine ⟨outcome_term_start_iff.mpr derivation, fun reread => ?_⟩
  cases named.readTerm_render_iff.mp reread with
  | app parts =>
      cases parts [] (.var "let") [.var "x"] rfl with
      | var free => exact (free rfl).1 rfl

end Termbook
