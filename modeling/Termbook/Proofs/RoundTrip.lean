import Termbook.Proofs.Acceptance
import Termbook.Proofs.Layout
import Termbook.Proofs.Named

/-! # Printed terms are read back

The plain layout of a well-named term is derived by the grammar as that term, with one exception: a
variable called like a keyword is taken for the keyword where a space follows it. A term is legible
if its layout has no such place. That a legible term is derived from its layout goes by induction on
its legibility, whose cases are those of the layout. -/

namespace Termbook

variable {text rest : List Char}

/-! ## Gaps before a term -/

/-- What stands after a gap after a gap stands after a gap. -/
theorem After.trans {mid tail : List Char} (first : After text mid) (second : After mid tail) :
    After text tail := by
  obtain ⟨gap, isGap, rfl⟩ := first
  exact second.append_left isGap

/-- A name may have a further gap before it. -/
theorem Word.of_after {mid : List Char} {name : String} (after : After text mid)
    (word : Word mid name rest) : Word text name rest :=
  ⟨word.1, word.2.1, after.trans word.2.2⟩

/-- A term may have a further gap before it. -/
theorem Derives.of_after {mid : List Char} {term : Term} (after : After text mid)
    (derivation : Derives mid (.term term) rest) : Derives text (.term term) rest := by
  cases derivation with
  | letIn mark binder equals value semicolon scope =>
      exact .letIn (after.trans mark) binder equals value semicolon scope
  | dup mark binder binder' equals value semicolon scope =>
      exact .dup (after.trans mark) binder binder' equals value semicolon scope
  | lam isMark marked binder scope => exact .lam isMark (after.trans marked) binder scope
  | bareCtr named capital => exact .bareCtr (named.of_after after) capital
  | ctr opened named capital inner closed =>
      exact .ctr (after.trans opened) named capital inner closed
  | op2 opened symbol first second closed =>
      exact .op2 (after.trans opened) symbol first second closed
  | unit opened closed => exact .unit (after.trans opened) closed
  | app opened arguments inner closed => exact .app (after.trans opened) arguments inner closed
  | num named digits small => exact .num (named.of_after after) digits small
  | chr quoted => exact .chr (after.trans quoted)
  | str isDelimiter pure quoted => exact .str isDelimiter pure (after.trans quoted)
  | openStr isDelimiter pure quoted => exact .openStr isDelimiter pure (after.trans quoted)
  | lst opened inner closed => exact .lst (after.trans opened) inner closed
  | var named small notLet notDup => exact .var (named.of_after after) small notLet notDup

/-! ## Names and numerals -/

/-- A name whose text begins with a keyword and its space is that keyword, with the space next. -/
theorem eq_of_mark_prefix {name : String} {mark : List Char} (keyword : String)
    (isMark : mark = keyword.toList ++ [' ']) (isKeyword : IsName keyword)
    (isName : IsName name) (ends : EndsName rest) (stands : mark <+: name.toList ++ rest) :
    name = keyword ∧ rest.head? = some ' ' := by
  obtain ⟨tail, split⟩ := stands
  have space : EndsName (' ' :: tail) := endsName_cons rfl
  rw [isMark, List.append_assoc] at split
  -- both names end where the name characters at the front of the text end
  have sameName := congrArg (List.takeWhile isNameChar) split
  rw [List.singleton_append, takeWhile_isNameChar_append isKeyword.2 space,
    takeWhile_isNameChar_append isName.2 ends] at sameName
  rw [← sameName] at split
  rw [← List.append_cancel_left split]
  exact ⟨String.toList_inj.mp sameName.symm, rfl⟩

/-- A digit belongs to names. -/
theorem isNameChar_of_isDigit {c : Char} (digit : c.isDigit = true) : isNameChar c = true := by
  simp [isNameChar, Char.isAlphanum, digit]

/-- The numeral of a number consists of digits. -/
theorem isDigit_of_mem_numeral {n : Nat} {c : Char} (member : c ∈ (toString n).toList) :
    c.isDigit = true := by
  rw [Nat.toString_eq_repr, Nat.toList_repr] at member
  exact Nat.isDigit_of_mem_toDigits (by decide) (by decide) member

/-- The numeral of a number is a name. -/
theorem isName_numeral (n : Nat) : IsName (toString n) := by
  refine ⟨?_, fun c member => isNameChar_of_isDigit (isDigit_of_mem_numeral member)⟩
  rw [Nat.toString_eq_repr, Nat.toList_repr]
  exact Nat.toDigits_ne_nil

/-- The numeral of a number is read as that number. -/
theorem ofDigitChars_numeral (n : Nat) : Nat.ofDigitChars 10 (toString n).toList 0 = n := by
  rw [Nat.toString_eq_repr, Nat.toList_repr, Nat.ofDigitChars_ten_toDigits]

/-- A literal stands between two delimiters that do not occur in its text. -/
theorem exists_delimiter_of_literal? {content literal : List Char}
    (isLiteral : literal? content = some literal) :
    ∃ delimiter, isDelimiter delimiter = true ∧ delimiter ∉ content ∧
      literal = delimiter :: (content ++ [delimiter]) := by
  rw [literal?] at isLiteral
  split at isLiteral
  · next pure =>
      cases isLiteral
      exact ⟨doubleQuote, rfl, pure, rfl⟩
  · split at isLiteral
    · next pure =>
        cases isLiteral
        exact ⟨backtick, rfl, pure, rfl⟩
    · contradiction

/-- A symbol is the longest one where a character of no symbol follows it. -/
theorem Oper.symbol_before (oper : Oper) {c : Char} (foreign : c ∉ Form.operatorChars)
    (tail : List Char) : Symbol (oper.symbol.toList ++ c :: tail) oper (c :: tail) := by
  have symbolChars : ∀ other : Oper, other.symbol.toList ⊆ Form.operatorChars := by
    intro other
    cases other <;> decide
  refine ⟨.refl _, ?_, fun other stands => ?_⟩
  · rintro - isSlash
    cases isSlash
    exact foreign (by decide)
  · refine Nat.le_of_not_lt fun longer => foreign (symbolChars other ?_)
    -- a longer symbol would reach over the character
    rw [← String.length_toList, ← String.length_toList] at longer
    have withNext : oper.symbol.toList ++ [c] <+: oper.symbol.toList ++ c :: tail :=
      (List.prefix_append_right_inj _).mpr ⟨tail, rfl⟩
    have inside := List.prefix_of_prefix_length_le withNext stands
      (by rw [List.length_append]; exact longer)
    exact inside.subset (by simp)

/-! ## Legible terms -/

namespace Term

/-- No variable called like a keyword has a space right after it in the layout of the term, where
`spaced` tells whether a space follows the whole term. The terms in a row have one space between any
two of them, and in all other places something else follows. -/
inductive Legible : (spaced : Bool) → Term → Prop where
  /-- A variable before a space is no keyword. -/
  | var {spaced : Bool} {name : String} (free : spaced = true → name ≠ "let" ∧ name ≠ "dup") :
      Legible spaced (.var name)
  /-- A number. -/
  | num {spaced : Bool} {value : UInt64} : Legible spaced (.num value)
  /-- A duplication, in which a semicolon follows the expression. -/
  | dup {spaced : Bool} {first second : String} {expr body : Term} (value : Legible false expr)
      (scope : Legible spaced body) : Legible spaced (.dup first second expr body)
  /-- A local definition, in which a semicolon follows the expression. -/
  | letIn {spaced : Bool} {name : String} {expr body : Term} (value : Legible false expr)
      (scope : Legible spaced body) : Legible spaced (.letIn name expr body)
  /-- An abstraction, which ends with its body. -/
  | lam {spaced : Bool} {name : String} {body : Term} (scope : Legible spaced body) :
      Legible spaced (.lam name body)
  /-- An application, in which the spine stands in a row. -/
  | app {spaced : Bool} {func argm : Term}
      (parts : ∀ before part after, (Term.app func argm).spine = before ++ part :: after →
        Legible (!after.isEmpty) part) : Legible spaced (.app func argm)
  /-- A binary operation, in which a space follows the left operand and a bracket the right one. -/
  | op2 {spaced : Bool} {oper : Oper} {left right : Term} (first : Legible true left)
      (second : Legible false right) : Legible spaced (.op2 oper left right)
  /-- A constructor with a string literal. -/
  | text {spaced : Bool} {name : String} {args : List Term} {literal : List Char}
      (sugar : (Term.ctr name args).toText?.bind literal? = some literal) :
      Legible spaced (.ctr name args)
  /-- A list, in which a comma or a bracket follows each item. -/
  | list {spaced : Bool} {name : String} {args items : List Term}
      (noText : (Term.ctr name args).toText?.bind literal? = none)
      (view : (Term.ctr name args).toList? = some items)
      (parts : ∀ item ∈ items, Legible false item) : Legible spaced (.ctr name args)
  /-- Any other constructor, in which the arguments stand in a row. -/
  | ctr {spaced : Bool} {name : String} {args : List Term}
      (noText : (Term.ctr name args).toText?.bind literal? = none)
      (noList : (Term.ctr name args).toList? = none)
      (parts : ∀ before part after, args = before ++ part :: after →
        Legible (!after.isEmpty) part) : Legible spaced (.ctr name args)

/-- A printable term is legible wherever it stands. -/
theorem Printable.legible {term : Term} (printable : term.Printable) (spaced : Bool) :
    term.Legible spaced := by
  cases printable with
  | var named => exact .var fun _ => named.2
  | num => exact .num
  | dup _ _ value scope =>
      exact .dup (Printable.legible value false) (Printable.legible scope spaced)
  | letIn _ value scope =>
      exact .letIn (Printable.legible value false) (Printable.legible scope spaced)
  | lam _ scope => exact .lam (Printable.legible scope spaced)
  | @app func argm function argument =>
      refine .app fun before part after split => ?_
      have member : part ∈ (Term.app func argm).spine := by simp [split]
      have printable : part.Printable := Named.of_mem_spine (.app function argument) member
      have := sizeOf_lt_of_mem_spine member
      exact printable.legible _
  | op2 first second => exact .op2 (Printable.legible first true) (Printable.legible second false)
  | @ctr name args named arguments =>
      rcases sugar_cases name args with
        ⟨literal, textView⟩ | ⟨textView, items, listView⟩ | ⟨textView, listView⟩
      · exact .text textView
      · refine .list textView listView fun item member => ?_
        have := sizeOf_lt_of_mem_toList? listView member
        -- the items are no arguments of the constructor, but those of the links of its chain
        have printable : (ofList items).Printable := by
          rw [← eq_ofList_of_toList? listView]
          exact .ctr named arguments
        exact Printable.legible (printable.of_mem_ofList member) false
      · refine .ctr textView listView fun before part after split => ?_
        have member : part ∈ args := by simp [split]
        have := List.sizeOf_lt_of_mem member
        exact Printable.legible (arguments part member) _
termination_by sizeOf term
decreasing_by
  all_goals
    simp only [dup.sizeOf_spec, letIn.sizeOf_spec, lam.sizeOf_spec, op2.sizeOf_spec,
      ctr.sizeOf_spec, app.sizeOf_spec] at *
    omega

/-! ## Layouts as characters -/

/-- The layouts of terms, each with `lead` before it. -/
def led (lead : List Char) (terms : List Term) : List Char :=
  terms.flatMap fun term => lead ++ term.plain.toList

theorem led_cons (lead : List Char) (term : Term) (terms : List Term) :
    led lead (term :: terms) = lead ++ (term.plain.toList ++ led lead terms) := by
  rw [led, List.flatMap_cons, List.append_assoc, led]

/-- Layouts led by a text are joined one after the other. -/
theorem toList_join_led (lead : String) (terms : List Term) :
    (String.join (terms.map fun term => lead ++ term.plain)).toList = led lead.toList terms := by
  induction terms with
  | nil => rfl
  | cons term terms ih => simp [led_cons, ← ih, String.toList_append]

variable (tail : List Char)

theorem plain_dup_append (first second : String) (expr body : Term) :
    (dup first second expr body).plain.toList ++ tail =
      Form.dupMark ++ (first.toList ++ ' ' :: (second.toList ++ ' ' :: '=' :: ' ' ::
        (expr.plain.toList ++ ';' :: ' ' :: (body.plain.toList ++ tail)))) := by
  simp [plain, Form.dupMark, String.toList_append]

theorem plain_letIn_append (name : String) (expr body : Term) :
    (letIn name expr body).plain.toList ++ tail =
      Form.letMark ++ (name.toList ++ ' ' :: '=' :: ' ' ::
        (expr.plain.toList ++ ';' :: ' ' :: (body.plain.toList ++ tail))) := by
  simp [plain, Form.letMark, String.toList_append]

theorem plain_lam_append (name : String) (body : Term) :
    (lam name body).plain.toList ++ tail =
      'λ' :: (name.toList ++ ' ' :: (body.plain.toList ++ tail)) := by
  simp [plain, String.toList_append]

theorem plain_op2_append (oper : Oper) (left right : Term) :
    (op2 oper left right).plain.toList ++ tail =
      '(' :: (oper.symbol.toList ++ ' ' ::
        (left.plain.toList ++ ' ' :: (right.plain.toList ++ ')' :: tail))) := by
  simp [plain, String.toList_append]

theorem plain_app_append {func argm head : Term} {others : List Term}
    (spine : (app func argm).spine = head :: others) :
    (app func argm).plain.toList ++ tail =
      '(' :: (head.plain.toList ++ (led [' '] others ++ ')' :: tail)) := by
  have joined : (String.join (others.map ((" " ++ ·) ∘ plain))).toList = led [' '] others :=
    toList_join_led " " others
  rw [plain_app, spine, List.map_cons, intercalate_cons, List.map_map]
  simp only [String.toList_append, joined, List.append_assoc]
  rfl

theorem plain_list_nil_append {name : String} {args : List Term}
    (noText : (ctr name args).toText?.bind literal? = none)
    (view : (ctr name args).toList? = some []) :
    (ctr name args).plain.toList ++ tail = '[' :: ']' :: tail := by
  rw [plain_of_list noText view]
  rfl

theorem plain_list_cons_append {name : String} {args items : List Term} {item : Term}
    (noText : (ctr name args).toText?.bind literal? = none)
    (view : (ctr name args).toList? = some (item :: items)) :
    (ctr name args).plain.toList ++ tail =
      '[' :: (item.plain.toList ++ (led [',', ' '] items ++ ']' :: tail)) := by
  have joined : (String.join (items.map ((", " ++ ·) ∘ plain))).toList = led [',', ' '] items :=
    toList_join_led ", " items
  rw [plain_of_list noText view, List.map_cons, intercalate_cons, List.map_map]
  simp only [String.toList_append, joined, List.append_assoc]
  rfl

theorem plain_ctr_append {name : String} {args : List Term}
    (noText : (ctr name args).toText?.bind literal? = none)
    (noList : (ctr name args).toList? = none) :
    (ctr name args).plain.toList ++ tail =
      '(' :: (name.toList ++ (led [' '] args ++ ')' :: tail)) := by
  have joined : (String.join (args.map fun arg => " " ++ arg.plain)).toList = led [' '] args :=
    toList_join_led " " args
  rw [plain_of_unsugared noText noList]
  simp only [String.toList_append, joined, List.append_assoc]
  rfl

/-! ## The front of a layout -/

/-- A spine begins with a term that is no application, and that term applied to the others is the
whole. -/
theorem exists_spineOnto_eq_cons (term : Term) (rest : List Term) :
    ∃ head others, term.spineOnto rest = head :: others ∧
      head.applyTo others = term.applyTo rest ∧ ∀ func argm, head ≠ app func argm := by
  fun_induction spineOnto term rest with
  | case1 rest func argm ih => exact ih
  | case2 head rest notApp => exact ⟨head, rest, rfl, rfl, notApp⟩

/-- The layout of a term begins with a solid character that is neither an operator nor a capital
letter. -/
theorem WellNamed.exists_plain_eq_cons {term : Term} (named : term.WellNamed) :
    ∃ c others, term.plain.toList ++ tail = c :: others ∧ isSolid c = true ∧
      c ∉ Form.operatorChars ∧ c.isUpper = false := by
  cases named with
  | @var name named =>
      obtain ⟨c, others, shape, nameChar⟩ := named.1.exists_eq_cons
      obtain ⟨solid, notOperator⟩ := solid_of_isNameChar nameChar
      have first : Form.startsVar c = true := by simpa [Form.headIs, shape] using named.2
      refine ⟨c, others ++ tail, ?_, solid, notOperator,
        ((Form.kind_of_isNameChar nameChar).2 first).1⟩
      rw [plain, shape, List.cons_append]
  | @num value =>
      obtain ⟨c, others, shape, nameChar⟩ := (isName_numeral value.toNat).exists_eq_cons
      obtain ⟨solid, notOperator⟩ := solid_of_isNameChar nameChar
      have digit : c.isDigit = true := isDigit_of_mem_numeral (shape ▸ List.mem_cons_self)
      refine ⟨c, others ++ tail, ?_, solid, notOperator,
        (Form.kind_of_isNameChar nameChar).1 digit⟩
      rw [plain, shape, List.cons_append]
  | dup => exact ⟨_, _, plain_dup_append .., rfl, by decide, rfl⟩
  | letIn => exact ⟨_, _, plain_letIn_append .., rfl, by decide, rfl⟩
  | lam => exact ⟨_, _, plain_lam_append .., rfl, by decide, rfl⟩
  | op2 => exact ⟨_, _, plain_op2_append .., rfl, by decide, rfl⟩
  | @app func argm =>
      obtain ⟨head, others, spine, -⟩ := exists_spineOnto_eq_cons (app func argm) []
      exact ⟨_, _, plain_app_append tail spine, rfl, by decide, rfl⟩
  | @ctr name args named arguments =>
      rcases sugar_cases name args with
        ⟨literal, textView⟩ | ⟨textView, items, listView⟩ | ⟨textView, listView⟩
      · rw [plain_of_literal textView, String.toList_ofList]
        obtain ⟨content, -, isLiteral⟩ := Option.bind_eq_some_iff.mp textView
        obtain ⟨delimiter, isDelimiter, -, rfl⟩ := exists_delimiter_of_literal? isLiteral
        rcases Bool.or_eq_true_iff.mp isDelimiter with double | back
        · obtain rfl := eq_of_beq double
          exact ⟨_, _, rfl, rfl, by decide, rfl⟩
        · obtain rfl := eq_of_beq back
          exact ⟨_, _, rfl, rfl, by decide, rfl⟩
      · cases items with
        | nil => exact ⟨_, _, plain_list_nil_append tail textView listView, rfl, by decide, rfl⟩
        | cons item items =>
            exact ⟨_, _, plain_list_cons_append tail textView listView, rfl, by decide, rfl⟩
      · exact ⟨_, _, plain_ctr_append tail textView listView, rfl, by decide, rfl⟩

/-- What the layout of a term begins with starts neither a constructor nor an operator. -/
theorem startsArguments_plain_append {term : Term} (named : term.WellNamed) :
    StartsArguments (term.plain.toList ++ tail) := by
  obtain ⟨first, rest, shape, solid, notOperator, notUpper⟩ := named.exists_plain_eq_cons tail
  rw [shape]
  exact startsArguments_of_after (.refl _) solid notUpper notOperator

/-! ## Reading layouts back -/

/-- A term is restored if the grammar derives it from its layout before any text that ends names,
and that starts with a space only if `spaced` says so. -/
def Restored (spaced : Bool) (term : Term) : Prop :=
  ∀ rest, EndsName rest → (rest.head? = some ' ' → spaced = true) →
    Derives (term.plain.toList ++ rest) (.term term) rest

/-- The terms in a row are restored, each up to the space or the bracket after it. -/
theorem derives_row {head : Term} {others : List Term}
    (restored : ∀ before part after, head :: others = before ++ part :: after →
      Restored (!after.isEmpty) part)
    (here : After text (head.plain.toList ++ (led [' '] others ++ ')' :: rest))) :
    Derives text (.terms (head :: others)) (')' :: rest) := by
  induction others generalizing head text with
  | nil =>
      have first := restored [] head [] rfl (')' :: rest) (endsName_cons rfl) (by simp)
      exact .moreTerms (first.of_after here) .noTerms
  | cons other others ih =>
      rw [led_cons, List.singleton_append, List.cons_append, List.append_assoc] at here
      have others := ih (fun before part after split =>
        restored (head :: before) part after (by rw [split, List.cons_append])) (.space _)
      refine .moreTerms (Derives.of_after here ?_) others
      exact restored [] head (_ :: _) rfl _ (endsName_cons rfl) fun _ => rfl

/-- The items of a list are restored, each up to the comma or the bracket after it. -/
theorem derives_items {head : Term} {others : List Term}
    (restored : ∀ item ∈ head :: others, Restored false item)
    (here : After text (head.plain.toList ++ (led [',', ' '] others ++ ']' :: rest))) :
    Derives text (.items (head :: others)) (']' :: rest) := by
  induction others generalizing head text with
  | nil =>
      have first := restored head List.mem_cons_self (']' :: rest) (endsName_cons rfl) (by simp)
      exact .moreItems (first.of_after here) .noItems
  | cons other others ih =>
      have here : After text (head.plain.toList ++ ',' :: ' ' ::
          (other.plain.toList ++ (led [',', ' '] others ++ ']' :: rest))) := by
        simpa [led_cons] using here
      have others := ih (fun item member => restored item (List.mem_cons_of_mem _ member))
        (.space _)
      refine .commaItems (Derives.of_after here ?_) (.refl _) others
      exact restored head List.mem_cons_self _ (endsName_cons rfl) (by simp)

/-- A legible term is restored. -/
theorem Legible.restored {spaced : Bool} {term : Term} (legible : term.Legible spaced)
    (named : term.WellNamed) : Restored spaced term := by
  induction legible with
  | @var spaced name free =>
      intro rest ends next
      cases named with
      | var named =>
          rw [plain]
          -- a keyword at the front would be the name itself, with a space next
          refine .var ⟨named.1, ends, .refl _⟩ named.2 (fun stands => ?_) fun stands => ?_
          · obtain ⟨isLet, space⟩ :=
              eq_of_mark_prefix "let" rfl (by decide) named.1 ends stands
            exact (free (next space)).1 isLet
          · obtain ⟨isDup, space⟩ :=
              eq_of_mark_prefix "dup" rfl (by decide) named.1 ends stands
            exact (free (next space)).2 isDup
  | @num spaced value =>
      intro rest ends _
      have word : Word ((toString value.toNat).toList ++ rest) (toString value.toNat) rest :=
        ⟨isName_numeral _, ends, .refl _⟩
      have derived := Derives.num word (fun c member => isDigit_of_mem_numeral member)
        (by rw [ofDigitChars_numeral]; exact value.toNat_lt)
      rw [ofDigitChars_numeral, UInt64.ofNat_toNat] at derived
      rwa [plain]
  | @dup spaced first second expr body _ _ value scope =>
      intro rest ends next
      cases named with
      | dup binder binder' valueNamed scopeNamed =>
          have exprDerived := value valueNamed (';' :: ' ' :: (body.plain.toList ++ rest))
            (endsName_cons rfl) (by simp)
          have bodyDerived := scope scopeNamed rest ends next
          rw [plain_dup_append]
          exact .dup (.refl _) ⟨binder, endsName_cons rfl, .refl _⟩
            ⟨binder', endsName_cons rfl, .space _⟩ (.space _) (exprDerived.of_after (.space _))
            (.refl _) (bodyDerived.of_after (.space _))
  | @letIn spaced name expr body _ _ value scope =>
      intro rest ends next
      cases named with
      | letIn binder valueNamed scopeNamed =>
          have exprDerived := value valueNamed (';' :: ' ' :: (body.plain.toList ++ rest))
            (endsName_cons rfl) (by simp)
          have bodyDerived := scope scopeNamed rest ends next
          rw [plain_letIn_append]
          exact .letIn (.refl _) ⟨binder, endsName_cons rfl, .refl _⟩ (.space _)
            (exprDerived.of_after (.space _)) (.refl _) (bodyDerived.of_after (.space _))
  | lam _ scope =>
      intro rest ends next
      cases named with
      | lam binder scopeNamed =>
          rw [plain_lam_append]
          refine .lam (.inl rfl) (.refl _) ⟨binder, endsName_cons rfl, .refl _⟩
            (Derives.of_after (.space _) ?_)
          exact scope scopeNamed rest ends next
  | @app spaced func argm _ parts =>
      intro rest ends next
      obtain ⟨head, others, spine, applied, -⟩ :=
        exists_spineOnto_eq_cons (Term.app func argm) []
      rw [← Term.spine] at spine
      have partNamed : ∀ part ∈ head :: others, part.WellNamed := fun part member =>
        named.of_mem_spine (spine ▸ member)
      have restored : ∀ before part after, head :: others = before ++ part :: after →
          Restored (!after.isEmpty) part := fun before part after split =>
        parts before part after (spine.trans split) (partNamed part (by simp [split]))
      rw [plain_app_append rest spine]
      -- the grammar folds the spine from the left, which gives the application back
      change Derives _ (.term ((Term.app func argm).applyTo [])) _
      rw [← applied]
      refine .app (.refl _) ?_ (derives_row restored (.refl _)) (.refl _)
      exact startsArguments_plain_append _ (partNamed head List.mem_cons_self)
  | @op2 spaced oper left right _ _ first second =>
      intro rest ends next
      cases named with
      | op2 leftNamed rightNamed =>
          have leftDerived := first leftNamed (' ' :: (right.plain.toList ++ ')' :: rest))
            (endsName_cons rfl) fun _ => rfl
          have rightDerived := second rightNamed (')' :: rest) (endsName_cons rfl) (by simp)
          rw [plain_op2_append]
          exact .op2 (.refl _) (oper.symbol_before (by decide) _)
            (leftDerived.of_after (.space _)) (rightDerived.of_after (.space _)) (.refl _)
  | @text spaced name args literal sugar =>
      intro rest ends next
      obtain ⟨content, view, isLiteral⟩ := Option.bind_eq_some_iff.mp sugar
      obtain ⟨delimiter, isDelimiter, pure, rfl⟩ := exists_delimiter_of_literal? isLiteral
      rw [plain_of_literal sugar, eq_ofText_of_toText? view, String.toList_ofList]
      refine .str isDelimiter pure ?_
      simpa using After.refl _
  | @list spaced name args items noText view _ parts =>
      intro rest ends next
      have isList := eq_ofList_of_toList? view
      rw [isList] at named
      cases items with
      | nil =>
          rw [plain_list_nil_append rest noText view, isList]
          exact .lst (.refl _) .noItems (.refl _)
      | cons item items =>
          have restored : ∀ part ∈ item :: items, Restored false part := fun part member =>
            parts part member (named.of_mem_ofList member)
          rw [plain_list_cons_append rest noText view, isList]
          exact .lst (.refl _) (derives_items restored (.refl _)) (.refl _)
  | @ctr spaced name args noText noList _ parts =>
      intro rest ends next
      cases named with
      | ctr isCtrName arguments =>
          have restored : ∀ before part after, args = before ++ part :: after →
              Restored (!after.isEmpty) part := fun before part after split =>
            parts before part after split (arguments part (by simp [split]))
          rw [plain_ctr_append rest noText noList]
          cases args with
          | nil =>
              exact .ctr (.refl _) ⟨isCtrName.1, endsName_cons rfl, .refl _⟩ isCtrName.2 .noTerms
                (.refl _)
          | cons arg args =>
              rw [led_cons, List.singleton_append, List.cons_append, List.append_assoc]
              exact .ctr (.refl _) ⟨isCtrName.1, endsName_cons rfl, .refl _⟩ isCtrName.2
                (derives_row restored (.space _)) (.refl _)

/-- A legible and well-named term is derived from its printed text. -/
theorem Legible.derives_render {spaced : Bool} {term : Term} (legible : term.Legible spaced)
    (named : term.WellNamed) (ends : EndsName rest) (next : rest.head? = some ' ' → spaced = true) :
    Derives (term.render.toList ++ rest) (.term term) rest := by
  rw [render_eq_plain]
  exact legible.restored named rest ends next

/-- A printable term is read back from its printed text wherever that stands in a text, if no name
goes on after it, and reading stops right after it. -/
theorem render_reads_back (term : Term) (printable : term.Printable) (before after : List Char)
    (ends : EndsName after) :
    (Parser.term (.ofIndex (before ++ term.render.toList ++ after) before.length)).outcome =
      .done term (.ofIndex (before ++ term.render.toList ++ after)
        (before.length + term.render.length)) := by
  have short : before.length + term.render.length ≤
      (before ++ term.render.toList ++ after).length := by
    rw [List.length_append, List.length_append, String.length_toList]
    omega
  refine outcome_term_ofIndex_iff.mpr ⟨by omega, short, ?_⟩
  rw [← String.length_toList, ← List.length_append, List.drop_left, List.append_assoc,
    List.drop_left]
  exact (printable.legible true).derives_render printable.wellNamed ends fun _ => rfl

/-- The application of a variable to a text is read back between an equals sign and the next
line. -/
theorem render_reads_back_app :
    (Term.app (.var "f") (.ofText ['a'])).Printable ∧ EndsName ['\n', 'g'] ∧
      (Parser.term (.ofIndex (['=', ' '] ++ (Term.app (.var "f") (.ofText ['a'])).render.toList ++
        ['\n', 'g']) 2)).outcome =
          .done (.app (.var "f") (.ofText ['a']))
            (.ofIndex (['=', ' '] ++ (Term.app (.var "f") (.ofText ['a'])).render.toList ++
              ['\n', 'g']) (2 + (Term.app (.var "f") (.ofText ['a'])).render.length)) := by
  have printable : (Term.app (.var "f") (.ofText ['a'])).Printable :=
    .app (.var (by decide)) (named_ofText _)
  have ends : EndsName ['\n', 'g'] := endsName_cons rfl
  exact ⟨printable, ends, render_reads_back _ printable ['=', ' '] ['\n', 'g'] ends⟩

end Term

end Termbook
