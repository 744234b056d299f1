import Termbook.Proofs.RoundTrip
import Termbook.Text.Encoding

/-! # Line ends in printed terms

The text of a file has its line ends unified before it is read. In a printed term a carriage return
can stand only in a string literal, which holds every character as it is; there the line end becomes
a newline. So a printed term is turned into another printed term, the one whose literals have their
line ends unified, and all that is to be shown is that no other sugar appears or gets lost. -/

namespace Termbook

variable {before after before' after' text : List Char}

/-! ## Line ends -/

/-- In front of any other text, unifying the line ends turns a text into another one: no line end
reaches over the end of the text. -/
def Unifies (before after : List Char) : Prop :=
  ∀ rest, unifyLineEnds (before ++ rest) = after ++ unifyLineEnds rest

/-- What is turned into something piece by piece is so as a whole. -/
theorem Unifies.append (first : Unifies before after) (second : Unifies before' after') :
    Unifies (before ++ before') (after ++ after') := by
  intro rest
  rw [List.append_assoc, first, second, List.append_assoc]

/-- A character that is no carriage return is kept. -/
theorem unifyLineEnds_cons {c : Char} (other : c ≠ '\r') (rest : List Char) :
    unifyLineEnds (c :: rest) = c :: unifyLineEnds rest := by
  rw [unifyLineEnds, if_neg other]
  exact fun _ isReturn => absurd isReturn other

/-- A text without carriage returns is kept. -/
theorem unifies_self (none : '\r' ∉ text) : Unifies text text := by
  intro rest
  induction text with
  | nil => rfl
  | cons c text ih =>
      have other : c ≠ '\r' := fun isReturn => none (isReturn ▸ List.mem_cons_self)
      have noneAfter : '\r' ∉ text := fun member => none (List.mem_cons_of_mem c member)
      rw [List.cons_append, unifyLineEnds_cons other, ih noneAfter, List.cons_append]

/-- A text followed by a character that belongs to no line end has its own line ends unified. -/
theorem unifies_append_singleton {c : Char} (notReturn : c ≠ '\r') (notNewline : c ≠ '\n')
    (content : List Char) : Unifies (content ++ [c]) (unifyLineEnds content ++ [c]) := by
  intro rest
  rw [List.append_assoc, List.append_assoc, List.singleton_append, List.singleton_append,
    ← unifyLineEnds_cons notReturn]
  fun_induction unifyLineEnds content with
  | case1 => rfl
  | case2 content ih => rw [List.cons_append, List.cons_append, unifyLineEnds, ih, List.cons_append]
  | case3 d content lone ih =>
      rw [List.cons_append, unifyLineEnds, ih, List.cons_append]
      intro others isReturn split
      -- the newline that would belong to the carriage return is in the text or is the character
      cases content with
      | nil => exact notNewline (List.cons_eq_cons.mp split).1
      | cons e content => exact lone content isReturn (by rw [(List.cons_eq_cons.mp split).1])

/-- Whatever belongs to no line end stands in a text as before. -/
theorem mem_unifyLineEnds_iff {c : Char} (notReturn : c ≠ '\r') (notNewline : c ≠ '\n') :
    c ∈ unifyLineEnds text ↔ c ∈ text := by
  fun_induction unifyLineEnds text with
  | case1 => rfl
  | case2 text ih => simp [ih, notReturn, notNewline]
  | case3 d text _ ih => by_cases isReturn : d = '\r' <;> simp [ih, isReturn, notReturn, notNewline]

/-- What has been encoded is decoded with its line ends unified. -/
theorem decodeText?_toUTF8 (text : String) :
    decodeText? text.toUTF8 = some (unifyLineEnds text.toList) := by
  have decoded : String.fromUTF8? text.toUTF8 = some text := by
    rw [String.fromUTF8?]
    exact dif_pos text.isValidUTF8
  rw [decodeText?, decoded, Option.map_some]

/-! ## Names and literals -/

/-- No name has a carriage return in it. -/
theorem IsName.unifies {name : String} (isName : IsName name) : Unifies name.toList name.toList :=
  unifies_self fun member => by simpa [isNameChar, Char.isAlphanum] using isName.2 _ member

/-- A delimiter belongs to no line end. -/
theorem ne_of_isDelimiter {c : Char} (delimiter : isDelimiter c = true) : c ≠ '\r' ∧ c ≠ '\n' := by
  constructor
  · rintro rfl
    contradiction
  · rintro rfl
    contradiction

/-- Unifying the line ends of a text keeps the delimiters in it. -/
theorem delimiter_mem_unifyLineEnds_iff {c : Char} (delimiter : isDelimiter c = true) :
    c ∈ unifyLineEnds text ↔ c ∈ text := by
  obtain ⟨notReturn, notNewline⟩ := ne_of_isDelimiter delimiter
  exact mem_unifyLineEnds_iff notReturn notNewline

/-- What stands between two delimiters has its line ends unified. -/
theorem unifies_quoted {delimiter : Char} (isDelimiter : isDelimiter delimiter = true)
    (content : List Char) :
    Unifies (delimiter :: content ++ [delimiter])
      (delimiter :: unifyLineEnds content ++ [delimiter]) := by
  obtain ⟨notReturn, notNewline⟩ := ne_of_isDelimiter isDelimiter
  intro rest
  rw [List.cons_append, List.cons_append, unifyLineEnds_cons notReturn,
    unifies_append_singleton notReturn notNewline content rest]
  rfl

/-- A literal turns into the literal of the text with its line ends unified. -/
theorem exists_literal?_unifyLineEnds {content literal : List Char}
    (isLiteral : literal? content = some literal) :
    ∃ literal', literal? (unifyLineEnds content) = some literal' ∧ Unifies literal literal' := by
  have sameDouble : doubleQuote ∈ unifyLineEnds content ↔ doubleQuote ∈ content :=
    delimiter_mem_unifyLineEnds_iff rfl
  have sameBack : backtick ∈ unifyLineEnds content ↔ backtick ∈ content :=
    delimiter_mem_unifyLineEnds_iff rfl
  simp only [literal?, sameDouble, sameBack] at isLiteral ⊢
  by_cases double : doubleQuote ∈ content
  · by_cases back : backtick ∈ content
    · rw [if_neg (not_not.mpr double), if_neg (not_not.mpr back)] at isLiteral
      contradiction
    · rw [if_neg (not_not.mpr double), if_pos back] at isLiteral ⊢
      cases isLiteral
      exact ⟨_, rfl, unifies_quoted rfl content⟩
  · rw [if_pos double] at isLiteral ⊢
    cases isLiteral
    exact ⟨_, rfl, unifies_quoted rfl content⟩

/-! ## Terms -/

namespace Term

/-- The characters of a text chain for which there is a string literal. -/
def literalText? (term : Term) : Option (List Char) :=
  term.toText?.filter fun content => (literal? content).isSome

mutual

/-- The term with line ends unified in each text that has a string literal. -/
def unified : Term → Term
  | var name => var name
  | dup first second expr body => dup first second expr.unified body.unified
  | letIn name expr body => letIn name expr.unified body.unified
  | lam name body => lam name body.unified
  | app func argm => app func.unified argm.unified
  | ctr name args =>
      -- a chain without a literal is written number by number, so it has no line ends to unify
      match (ctr name args).literalText? with
      | some content => ofText (unifyLineEnds content)
      | none => ctr name (unifiedAll args)
  | num value => num value
  | op2 oper left right => op2 oper left.unified right.unified

/-- The terms with line ends unified, one by one. -/
def unifiedAll : List Term → List Term
  | [] => []
  | term :: terms => term.unified :: unifiedAll terms

end

variable {name : String} {args : List Term} {isVar : String → Prop}

theorem unifiedAll_eq_map (terms : List Term) : unifiedAll terms = terms.map unified := by
  induction terms with
  | nil => rfl
  | cons term terms ih => rw [unifiedAll, ih, List.map_cons]

/-- A constructor with a string literal becomes the text of the literal with its line ends
unified. -/
theorem unified_of_literal {literal : List Char}
    (sugar : (ctr name args).toText?.bind literal? = some literal) :
    ∃ content, ctr name args = ofText content ∧ literal? content = some literal ∧
      (ctr name args).unified = ofText (unifyLineEnds content) := by
  obtain ⟨content, view, isLiteral⟩ := Option.bind_eq_some_iff.mp sugar
  have found : (ctr name args).literalText? = some content :=
    Option.filter_eq_some_iff.mpr ⟨view, by rw [isLiteral]; rfl⟩
  exact ⟨content, eq_ofText_of_toText? view, isLiteral, by rw [unified, found]⟩

/-- Any other constructor keeps its name. -/
theorem unified_of_unsugared (noText : (ctr name args).toText?.bind literal? = none) :
    (ctr name args).unified = ctr name (args.map unified) := by
  have missing : (ctr name args).literalText? = none := by
    refine Option.filter_eq_none_iff.mpr fun content view isLiteral => ?_
    rw [view, Option.bind_some] at noText
    rw [noText] at isLiteral
    contradiction
  rw [unified, missing, unifiedAll_eq_map]

/-- A constructor stays a constructor. -/
theorem exists_unified_ctr (name : String) (args : List Term) :
    ∃ name' args', (ctr name args).unified = ctr name' args' := by
  cases sugar : (ctr name args).toText?.bind literal? with
  | none => exact ⟨_, _, unified_of_unsugared sugar⟩
  | some literal =>
      obtain ⟨content, -, -, isText⟩ := unified_of_literal sugar
      rw [isText]
      cases unifyLineEnds content with
      | nil => exact ⟨_, _, rfl⟩
      | cons c content => exact ⟨_, _, rfl⟩

/-- Only a number becomes that number. -/
theorem eq_num_of_unified {term : Term} {value : UInt64} (isNum : term.unified = num value) :
    term = num value := by
  cases term with
  | num => exact isNum
  | ctr name args =>
      obtain ⟨name', args', isCtr⟩ := exists_unified_ctr name args
      rw [isCtr] at isNum
      contradiction
  | var | dup | letIn | lam | app | op2 => simp [unified] at isNum

/-- A spine becomes the spine of the terms with line ends unified. -/
theorem spineOnto_unified (term : Term) (rest : List Term) :
    term.unified.spineOnto (rest.map unified) = (term.spineOnto rest).map unified := by
  fun_induction spineOnto term rest with
  | case1 rest func argm ih => rw [unified, spineOnto, ← List.map_cons, ih]
  | case2 head rest notApp =>
      cases head with
      | app func argm => exact absurd rfl (notApp func argm)
      | ctr name args =>
          -- a literal becomes a constructor again, so no application comes to the head of the spine
          obtain ⟨name', args', isCtr⟩ := exists_unified_ctr name args
          rw [List.map_cons, isCtr]
          rfl
      | var | dup | letIn | lam | num | op2 => rfl

/-- Names are kept as they are, and texts have none. -/
theorem Named.unified {term : Term} (named : term.Named isVar) : term.unified.Named isVar := by
  induction named with
  | var named => exact .var named
  | dup binder binder' _ _ value scope => exact .dup binder binder' value scope
  | letIn binder _ _ value scope => exact .letIn binder value scope
  | lam binder _ scope => exact .lam binder scope
  | app _ _ function argument => exact .app function argument
  | @ctr name args named _ arguments =>
      cases sugar : (Term.ctr name args).toText?.bind literal? with
      | some literal =>
          obtain ⟨content, -, -, isText⟩ := unified_of_literal sugar
          rw [isText]
          exact named_ofText _
      | none =>
          rw [unified_of_unsugared sugar]
          refine .ctr named fun arg member => ?_
          obtain ⟨arg, inside, rfl⟩ := List.mem_map.mp member
          exact arguments arg inside
  | num => exact .num
  | op2 _ _ first second => exact .op2 first second

/-! ## Sugar -/

/-- A text is told by its chain. -/
theorem ofText_inj {content content' : List Char} (same : ofText content = ofText content') :
    content = content' := by
  have := congrArg toText? same
  rwa [toText?_ofText, toText?_ofText, Option.some_inj] at this

/-- What becomes a text was a text with the same delimiters in it. -/
theorem exists_eq_ofText_of_unified {term : Term} {content' : List Char}
    (isText : term.unified = ofText content') :
    ∃ content, term = ofText content ∧
      ∀ c, isDelimiter c = true → (c ∈ content' ↔ c ∈ content) := by
  cases term with
  | ctr name args =>
      cases sugar : (ctr name args).toText?.bind literal? with
      | some literal =>
          obtain ⟨content, same, -, becomes⟩ := unified_of_literal sugar
          obtain rfl := ofText_inj (becomes.symm.trans isText)
          exact ⟨content, same, fun c delimiter => delimiter_mem_unifyLineEnds_iff delimiter⟩
      | none =>
          rw [unified_of_unsugared sugar] at isText
          cases content' with
          | nil =>
              obtain ⟨rfl, noArgs⟩ := ctr.inj isText
              obtain rfl := List.map_eq_nil_iff.mp noArgs
              exact ⟨[], rfl, fun _ _ => Iff.rfl⟩
          | cons c content' =>
              -- a link of a text that has no literal: the character is kept, the rest is a text
              obtain ⟨rfl, link⟩ := ctr.inj isText
              obtain ⟨head, others, rfl, isChar, link⟩ := List.map_eq_cons_iff.mp link
              obtain ⟨tail, others, rfl, isTail, link⟩ := List.map_eq_cons_iff.mp link
              obtain rfl := List.map_eq_nil_iff.mp link
              obtain rfl : head = ofChar c := eq_num_of_unified isChar
              obtain ⟨content, rfl, delimiters⟩ := exists_eq_ofText_of_unified isTail
              refine ⟨c :: content, rfl, fun d delimiter => ?_⟩
              rw [List.mem_cons, List.mem_cons, delimiters d delimiter]
  | var | dup | letIn | lam | app | num | op2 =>
      cases content' <;> simp [unified, ofText, ofCodePoints] at isText

/-- Where there was no string literal, none appears. -/
theorem bind_literal?_unified (noText : (ctr name args).toText?.bind literal? = none) :
    (ctr name (args.map unified)).toText?.bind literal? = none := by
  refine Option.eq_none_iff_forall_ne_some.mpr fun literal sugar => ?_
  obtain ⟨content', view, isLiteral⟩ := Option.bind_eq_some_iff.mp sugar
  have becomes := eq_ofText_of_toText? view
  rw [← unified_of_unsugared noText] at becomes
  -- the literal would be that of a text which has been one before, with both delimiters in it
  obtain ⟨content, same, delimiters⟩ := exists_eq_ofText_of_unified becomes
  rw [same, toText?_ofText, Option.bind_some, literal?_eq_none_iff] at noText
  have clash : literal? content' = none := by
    rw [literal?_eq_none_iff, delimiters _ rfl, delimiters _ rfl]
    exact noText
  rw [clash] at isLiteral
  contradiction

/-- A link of a list has no string literal. -/
theorem bind_literal?_cons (item rest : Term) :
    (ctr consName [item, rest]).toText?.bind literal? = none := by
  rw [toText?_eq_none (by decide) (by decide), Option.bind_none]

/-- A list becomes the list of its items with line ends unified. -/
theorem unified_ofList (items : List Term) :
    (ofList items).unified = ofList (items.map unified) := by
  induction items with
  | nil => rfl
  | cons item items ih =>
      change (ctr consName [item, ofList items]).unified = _
      rw [unified_of_unsugared (bind_literal?_cons item (ofList items)), List.map_cons,
        List.map_singleton, ih]
      rfl

/-- No text is a list. -/
theorem ofText_ne_ofList (content : List Char) (items : List Term) :
    ofText content ≠ ofList items := by
  intro same
  have noText : (ofList items).toText? = none := by
    cases items with
    | nil => exact toText?_eq_none (by decide) (by decide) []
    | cons item items => exact toText?_eq_none (by decide) (by decide) [item, ofList items]
  rw [← same, toText?_ofText] at noText
  contradiction

/-- What becomes a list was a list. -/
theorem exists_eq_ofList_of_unified {term : Term} {items' : List Term}
    (isList : term.unified = ofList items') : ∃ items, term = ofList items := by
  cases term with
  | ctr name args =>
      cases sugar : (ctr name args).toText?.bind literal? with
      | some literal =>
          obtain ⟨content, -, -, becomes⟩ := unified_of_literal sugar
          exact absurd (becomes.symm.trans isList) (ofText_ne_ofList _ _)
      | none =>
          rw [unified_of_unsugared sugar] at isList
          cases items' with
          | nil =>
              obtain ⟨rfl, noArgs⟩ := ctr.inj isList
              obtain rfl := List.map_eq_nil_iff.mp noArgs
              exact ⟨[], rfl⟩
          | cons item' items' =>
              obtain ⟨rfl, link⟩ := ctr.inj isList
              obtain ⟨item, others, rfl, -, link⟩ := List.map_eq_cons_iff.mp link
              obtain ⟨tail, others, rfl, isTail, link⟩ := List.map_eq_cons_iff.mp link
              obtain rfl := List.map_eq_nil_iff.mp link
              obtain ⟨items, rfl⟩ := exists_eq_ofList_of_unified isTail
              exact ⟨item :: items, rfl⟩
  | var | dup | letIn | lam | app | num | op2 => cases items' <;> simp [unified, ofList] at isList

/-- Where there was no list, none appears. -/
theorem toList?_unified_eq_none (noText : (ctr name args).toText?.bind literal? = none)
    (noList : (ctr name args).toList? = none) : (ctr name (args.map unified)).toList? = none := by
  refine Option.eq_none_iff_forall_ne_some.mpr fun items' view => ?_
  have becomes := eq_ofList_of_toList? view
  rw [← unified_of_unsugared noText] at becomes
  obtain ⟨items, same⟩ := exists_eq_ofList_of_unified becomes
  rw [same, toList?_ofList] at noList
  contradiction

/-- Where there was a list, there is one with line ends unified. -/
theorem toList?_unified_eq_some {items : List Term}
    (noText : (ctr name args).toText?.bind literal? = none)
    (view : (ctr name args).toList? = some items) :
    (ctr name (args.map unified)).toList? = some (items.map unified) := by
  rw [← unified_of_unsugared noText, eq_ofList_of_toList? view, unified_ofList, toList?_ofList]

/-! ## Layouts -/

/-- A text is laid out as its literal, if there is one. -/
theorem plain_ofText {content literal : List Char} (isLiteral : literal? content = some literal) :
    (ofText content).plain = String.ofList literal := by
  have sugar : (ofText content).toText?.bind literal? = some literal := by
    rw [toText?_ofText, Option.bind_some, isLiteral]
  cases content with
  | nil => exact plain_of_literal sugar
  | cons c content => exact plain_of_literal sugar

/-- Layouts that are led by a text have their line ends unified one by one. -/
theorem unifies_led {lead : List Char} {terms : List Term} (none : '\r' ∉ lead)
    (parts : ∀ term ∈ terms, Unifies term.plain.toList term.unified.plain.toList) :
    Unifies (led lead terms) (led lead (terms.map unified)) := by
  induction terms with
  | nil => exact fun rest => rfl
  | cons term terms ih =>
      have first := parts term List.mem_cons_self
      have others := ih fun other member => parts other (List.mem_cons_of_mem _ member)
      rw [List.map_cons, led_cons, led_cons]
      exact (unifies_self none).append (first.append others)

/-- Unifying the line ends in the layout of a term gives the layout of the term with line ends
unified. -/
theorem Legible.unifies {spaced : Bool} {term : Term} (legible : term.Legible spaced)
    (named : term.WellNamed) : Unifies term.plain.toList term.unified.plain.toList := by
  -- legibility has a case for each layout, and tells which parts stand in its row or list
  induction legible with
  | @var spaced name _ =>
      cases named with
      | var named =>
          rw [unified, plain]
          exact named.1.unifies
  | @num spaced value =>
      rw [unified, plain]
      exact (isName_numeral value.toNat).unifies
  | @dup spaced first second expr body _ _ value scope =>
      intro rest
      cases named with
      | dup binder binder' valueNamed scopeNamed =>
          have keyword : Unifies Form.dupMark Form.dupMark := unifies_self (by decide)
          rw [unified, plain_dup_append, plain_dup_append, keyword]
          simp (disch := decide) only [unifyLineEnds_cons, binder.unifies _, binder'.unifies _,
            value valueNamed _, scope scopeNamed _]
  | @letIn spaced name expr body _ _ value scope =>
      intro rest
      cases named with
      | letIn binder valueNamed scopeNamed =>
          have keyword : Unifies Form.letMark Form.letMark := unifies_self (by decide)
          rw [unified, plain_letIn_append, plain_letIn_append, keyword]
          simp (disch := decide) only [unifyLineEnds_cons, binder.unifies _, value valueNamed _,
            scope scopeNamed _]
  | @lam spaced name body _ scope =>
      intro rest
      cases named with
      | lam binder scopeNamed =>
          rw [unified, plain_lam_append, plain_lam_append]
          simp (disch := decide) only [unifyLineEnds_cons, binder.unifies _, scope scopeNamed _]
  | @app spaced func argm _ parts =>
      intro rest
      obtain ⟨head, others, spine, -⟩ := exists_spineOnto_eq_cons (Term.app func argm) []
      rw [← Term.spine] at spine
      have unifiedSpine : (Term.app func.unified argm.unified).spine =
          head.unified :: others.map Term.unified := by
        have := spineOnto_unified (Term.app func argm) []
        rwa [unified, ← Term.spine, spine] at this
      have inSpine : ∀ part ∈ head :: others,
          Unifies part.plain.toList part.unified.plain.toList := by
        intro part member
        obtain ⟨before, after, split⟩ := List.append_of_mem member
        exact parts before part after (spine.trans split) (named.of_mem_spine (spine ▸ member))
      have row : Unifies (led [' '] others) (led [' '] (others.map Term.unified)) :=
        unifies_led (by decide) fun part member => inSpine part (List.mem_cons_of_mem _ member)
      rw [unified, plain_app_append rest spine, plain_app_append _ unifiedSpine]
      simp (disch := decide) only [unifyLineEnds_cons, inSpine head List.mem_cons_self _, row _]
  | @op2 spaced oper left right _ _ first second =>
      intro rest
      cases named with
      | op2 leftNamed rightNamed =>
          have symbol : Unifies oper.symbol.toList oper.symbol.toList :=
            unifies_self (by cases oper <;> decide)
          rw [unified, plain_op2_append, plain_op2_append]
          simp (disch := decide) only [unifyLineEnds_cons, symbol _, first leftNamed _,
            second rightNamed _]
  | @text spaced name args literal sugar =>
      obtain ⟨content, -, isLiteral, becomes⟩ := unified_of_literal sugar
      obtain ⟨literal', isLiteral', unifies⟩ := exists_literal?_unifyLineEnds isLiteral
      rw [becomes, plain_of_literal sugar, plain_ofText isLiteral', String.toList_ofList,
        String.toList_ofList]
      exact unifies
  | @list spaced name args items noText view _ parts =>
      intro rest
      have isList := eq_ofList_of_toList? view
      have inList : ∀ item ∈ items, Unifies item.plain.toList item.unified.plain.toList := by
        intro item member
        rw [isList] at named
        exact parts item member (named.of_mem_ofList member)
      have noText' := bind_literal?_unified noText
      have view' := toList?_unified_eq_some noText view
      rw [unified_of_unsugared noText]
      cases items with
      | nil =>
          rw [plain_list_nil_append rest noText view, plain_list_nil_append _ noText' view']
          simp (disch := decide) only [unifyLineEnds_cons]
      | cons item items =>
          have row : Unifies (led [',', ' '] items) (led [',', ' '] (items.map Term.unified)) :=
            unifies_led (by decide) fun item member => inList item (List.mem_cons_of_mem _ member)
          rw [plain_list_cons_append rest noText view, plain_list_cons_append _ noText' view']
          simp (disch := decide) only [unifyLineEnds_cons, inList item List.mem_cons_self _, row _]
  | @ctr spaced name args noText noList _ parts =>
      intro rest
      cases named with
      | ctr isCtrName arguments =>
          have row : Unifies (led [' '] args) (led [' '] (args.map Term.unified)) := by
            refine unifies_led (by decide) fun arg member => ?_
            obtain ⟨before, after, split⟩ := List.append_of_mem member
            exact parts before arg after split (arguments arg member)
          have noText' := bind_literal?_unified noText
          have noList' := toList?_unified_eq_none noText noList
          rw [unified_of_unsugared noText, plain_ctr_append rest noText noList,
            plain_ctr_append _ noText' noList']
          simp (disch := decide) only [unifyLineEnds_cons, isCtrName.1.unifies _, row _]

end Term

end Termbook
