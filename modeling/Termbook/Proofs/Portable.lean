import Termbook.Proofs.LeadingGap
import Termbook.Proofs.RoundTrip

/-! # What is read depends on nothing around it

A token is found from its own characters, and at most one character after it decides where it ends.
So a phrase may be taken from its text and put into another one: it stands there as well, before any
text that starts like the one before which it stood or that ends a name. A phrase that reaches the
end of its text may have a string literal open there; put before more text, it is closed first. -/

namespace Termbook

open Cursor (start)

variable {text mid rest rest' : List Char}

/-! ## The text after a phrase -/

/-- `Replaces rest rest'`: where `rest` follows a phrase, `rest'` may follow it instead. It starts
with the same character, or no name goes on with it and no space is new at its start. -/
def Replaces (rest rest' : List Char) : Prop :=
  rest'.head? = rest.head? ∨
    EndsName rest' ∧ (rest'.head? = some ' ' → rest.head? = some ' ')

/-- After something of its own, any text may follow. -/
theorem Replaces.append (replaces : Replaces rest rest') (used : List Char) :
    Replaces (used ++ rest) (used ++ rest') := by
  cases used with
  | nil => exact replaces
  | cons c used => exact .inl rfl

/-- A name that ends before the one text ends before the other. -/
theorem Replaces.endsName (replaces : Replaces rest rest') (ends : EndsName rest) :
    EndsName rest' := by
  rcases replaces with same | ⟨ends', -⟩
  · rwa [EndsName, same]
  · exact ends'

/-- A space at the start is not new. -/
theorem Replaces.space (replaces : Replaces rest rest') (space : rest'.head? = some ' ') :
    rest.head? = some ' ' := by
  rcases replaces with same | ⟨-, noNew⟩
  · rwa [← same]
  · exact noNew space

/-- A delimiter may follow any phrase. -/
theorem replaces_delimiter {delimiter : Char} (isDelimiter : isDelimiter delimiter = true) :
    Replaces rest (delimiter :: rest') := by
  rcases Bool.or_eq_true_iff.mp isDelimiter with double | back
  · obtain rfl := eq_of_beq double
    exact .inr ⟨endsName_cons rfl, by simp [doubleQuote]⟩
  · obtain rfl := eq_of_beq back
    exact .inr ⟨endsName_cons rfl, by simp [backtick]⟩

/-! ## Portable phrases -/

/-- A relation between the text from the start of a phrase on and the text after it. -/
abbrev Reads : Type := List Char → List Char → Prop

/-- What stands from `text` up to `rest` stands before other texts as well, unchanged unless it
reaches the end of the text, where it may first have to be closed. -/
def Portable (reads : Reads) (text rest : List Char) : Prop :=
  ∃ used closing, text = used ++ rest ∧ (rest ≠ [] → closing = []) ∧
    ∀ rest', Replaces rest rest' →
      Replaces rest (closing ++ rest') ∧ reads (used ++ (closing ++ rest')) rest'

/-- A pattern stands after a gap. -/
def Stands (pattern : List Char) : Reads := fun text rest =>
  After text (pattern ++ rest)

variable {P Q : Reads}

theorem Portable.imp (portable : Portable P text rest)
    (imp : ∀ text rest, P text rest → Q text rest) : Portable Q text rest := by
  obtain ⟨used, closing, split, closed, elsewhere⟩ := portable
  refine ⟨used, closing, split, closed, fun rest' replaces => ?_⟩
  obtain ⟨replaces, read⟩ := elsewhere rest' replaces
  exact ⟨replaces, imp _ _ read⟩

/-- What is portable in two parts is portable. -/
theorem Portable.comp (first : Portable P text mid) (second : Portable Q mid rest) :
    Portable (Relation.Comp P Q) text rest := by
  obtain ⟨used, closing, rfl, closed, elsewhere⟩ := first
  obtain ⟨used', closing', rfl, closed', elsewhere'⟩ := second
  refine ⟨used ++ used', closing ++ closing', (List.append_assoc ..).symm, fun left => ?_,
    fun rest' replaces => ?_⟩
  · rw [closed (List.append_ne_nil_of_right_ne_nil _ left), closed' left, List.append_nil]
  · obtain ⟨replaces, read'⟩ := elsewhere' rest' replaces
    obtain ⟨replacesMid, read⟩ := elsewhere _ (replaces.append used')
    cases used' with
    | nil =>
        -- the first part may have to be closed as well
        rw [List.append_assoc, List.append_nil]
        exact ⟨replacesMid, _, read, read'⟩
    | cons c used' =>
        obtain rfl := closed nofun
        rw [List.nil_append, List.append_assoc]
        exact ⟨replaces, _, read, read'⟩

/-- What needs nothing of the text after it is portable. -/
theorem portable_of_forall {used : List Char} (split : text = used ++ rest)
    (elsewhere : ∀ rest', Replaces rest rest' → P (used ++ rest') rest') :
    Portable P text rest :=
  ⟨used, [], split, fun _ => rfl, fun rest' replaces => ⟨replaces, elsewhere rest' replaces⟩⟩

/-- A pattern after a gap is portable. -/
theorem portable_stands (pattern : List Char) (stands : Stands pattern text rest) :
    Portable (Stands pattern) text rest := by
  obtain ⟨gap, isGap, rfl⟩ := stands
  refine portable_of_forall (List.append_assoc ..).symm fun rest' _ => ?_
  exact ⟨gap, isGap, List.append_assoc ..⟩

/-- A name is portable. -/
theorem portable_word {name : String} (word : Word text name rest) :
    Portable (fun text rest => Word text name rest) text rest := by
  obtain ⟨isName, ends, gap, isGap, rfl⟩ := word
  refine portable_of_forall (List.append_assoc ..).symm fun rest' replaces => ?_
  exact ⟨isName, replaces.endsName ends, gap, isGap, List.append_assoc ..⟩

/-- A keyword does not come about where another text follows a name. -/
theorem Replaces.not_mark_prefix (replaces : Replaces rest rest') {name : String}
    (isName : IsName name) (ends : EndsName rest) {mark : List Char} (keyword : String)
    (isMark : mark = keyword.toList ++ [' ']) (isKeyword : IsName keyword)
    (absent : ¬ mark <+: name.toList ++ rest) : ¬ mark <+: name.toList ++ rest' := by
  intro stands
  obtain ⟨rfl, space⟩ :=
    eq_of_mark_prefix keyword isMark isKeyword isName (replaces.endsName ends) stands
  obtain ⟨others, rfl⟩ := List.head?_eq_some_iff.mp (replaces.space space)
  exact absent ⟨others, by rw [isMark, List.append_assoc]; rfl⟩

/-! ## Operators -/

/-- A symbol that goes on after another one has one more character. -/
theorem Oper.exists_symbol_eq_append {oper other : Oper}
    (begins : oper.symbol.toList <+: other.symbol.toList)
    (longer : oper.symbol.length < other.symbol.length) :
    ∃ c, other.symbol.toList = oper.symbol.toList ++ [c] := by
  have atMostTwo : other.symbol.length ≤ 2 := by cases other <;> decide
  have atLeastOne : 1 ≤ oper.symbol.length := by cases oper <;> decide
  obtain ⟨more, shape⟩ := begins
  have total := congrArg List.length shape
  rw [List.length_append, String.length_toList, String.length_toList] at total
  obtain ⟨c, rfl⟩ : ∃ c, more = [c] := List.length_eq_one_iff.mp (by omega)
  exact ⟨c, shape.symm⟩

/-- Which operator stands in a text depends on one character after its symbol. -/
theorem Symbol.of_head? {used : List Char} {oper : Oper} (symbol : Symbol (used ++ rest) oper rest)
    (same : rest'.head? = rest.head?) : Symbol (used ++ rest') oper rest' := by
  obtain ⟨⟨gap, isGap, split⟩, single, longest⟩ := symbol
  rw [← List.append_assoc] at split
  obtain rfl := List.append_cancel_right split
  refine ⟨⟨gap, isGap, List.append_assoc ..⟩, same ▸ single, fun other stands => ?_⟩
  refine Nat.le_of_not_lt fun longer => ?_
  have shorter : oper.symbol.toList.length ≤ other.symbol.toList.length := by
    rw [String.length_toList, String.length_toList]
    exact Nat.le_of_lt longer
  have begins := List.prefix_of_prefix_length_le (List.prefix_append ..) stands shorter
  obtain ⟨c, shape⟩ := Oper.exists_symbol_eq_append begins longer
  -- the last character of the longer symbol is the next one in either text
  rw [shape] at stands
  obtain ⟨others, rfl⟩ := (List.prefix_append_right_inj _).mp stands
  obtain ⟨others', rfl⟩ := List.head?_eq_some_iff.mp same.symm
  have := longest other (shape ▸ ⟨others', by simp⟩)
  omega

/-- An operator is portable together with something that takes text after it. -/
theorem portable_symbol_comp {oper : Oper} (symbol : Symbol text oper mid)
    (second : Portable Q mid rest) (takes : rest.length < mid.length) :
    Portable (Relation.Comp (fun text rest => Symbol text oper rest) Q) text rest := by
  obtain ⟨used, closing, rfl, closed, elsewhere⟩ := second
  obtain ⟨used', rfl⟩ : ∃ used', text = used' ++ (used ++ rest) := by
    obtain ⟨⟨gap, -, rfl⟩, -⟩ := symbol
    exact ⟨gap ++ oper.symbol.toList, (List.append_assoc ..).symm⟩
  refine ⟨used' ++ used, closing, (List.append_assoc ..).symm, closed, fun rest' replaces => ?_⟩
  obtain ⟨replaces, read⟩ := elsewhere rest' replaces
  refine ⟨replaces, _, ?_, read⟩
  rw [List.append_assoc]
  refine symbol.of_head? ?_
  cases used with
  | nil => simp at takes
  | cons c used => rfl

/-! ## Arguments -/

/-- That arguments start in a text is known from a part of it that has a significant character. -/
theorem StartsArguments.of_append {used : List Char} (arguments : StartsArguments (used ++ rest))
    (reaches : rest.length < (dropGap (used ++ rest)).length) (rest' : List Char) :
    StartsArguments (used ++ rest') := by
  have left : dropGap (used ++ rest) ≠ [] := List.ne_nil_of_length_pos (by omega)
  have significant := significant_dropGap left
  have after := (after_iff_dropGap_eq significant).mpr rfl
  cases shape : dropGap (used ++ rest) with
  | nil => exact absurd shape left
  | cons c tail =>
      rw [shape] at significant after reaches
      obtain ⟨notUpper, notOperator⟩ := arguments c tail after significant
      have notSlash : c ≠ '/' := by
        rintro rfl
        exact notOperator (by decide)
      have solid : isSolid c = true := by simp [isSolid, significant.1, notSlash]
      -- the character lies before `rest`, with the gap before it
      obtain ⟨gap, isGap, split⟩ := after
      rcases List.append_eq_append_iff.mp split with ⟨within, rfl, same⟩ | ⟨within, rfl, same⟩
      · rw [same, List.length_append] at reaches
        omega
      · cases within with
        | nil =>
            rw [same] at reaches
            exact absurd reaches (Nat.lt_irrefl _)
        | cons first within =>
            obtain ⟨rfl, -⟩ := List.cons_eq_cons.mp same
            have first : After (gap ++ c :: within ++ rest') (c :: (within ++ rest')) :=
              ⟨gap, isGap, List.append_assoc ..⟩
            exact startsArguments_of_after first solid notUpper notOperator

/-- Arguments that reach over a significant character are portable as arguments. -/
theorem Portable.startsArguments (portable : Portable P text rest)
    (arguments : StartsArguments text) (reaches : rest.length < (dropGap text).length) :
    Portable (fun text rest => StartsArguments text ∧ P text rest) text rest := by
  obtain ⟨used, closing, rfl, closed, elsewhere⟩ := portable
  refine ⟨used, closing, rfl, closed, fun rest' replaces => ?_⟩
  obtain ⟨replaces, read⟩ := elsewhere rest' replaces
  exact ⟨replaces, arguments.of_append reaches _, read⟩

/-! ## Terms -/

/-- A term takes text. -/
theorem Derives.length_lt {term : Term} (derivation : Derives text (.term term) rest) :
    rest.length < text.length :=
  Parser.takesText_term _ _ _ (outcome_term_start_iff.mpr derivation)

/-- Terms in a row leave no more than there was. -/
theorem Derives.length_le {terms : List Term} (derivation : Derives text (.terms terms) rest) :
    rest.length ≤ text.length := by
  induction terms generalizing text with
  | nil =>
      cases derivation
      exact Nat.le_refl _
  | cons term terms ih =>
      cases derivation with
      | moreTerms first others => exact Nat.le_trans (ih others) (Nat.le_of_lt first.length_lt)

/-- Terms in a row reach over the first significant character, if there are any. -/
theorem Derives.length_lt_dropGap {term : Term} {terms : List Term}
    (derivation : Derives text (.terms (term :: terms)) rest) :
    rest.length < (dropGap text).length := by
  cases derivation with
  | moreTerms first others =>
      exact Nat.lt_of_le_of_lt others.length_le (derives_dropGap_iff.mpr first).length_lt

/-- Whatever is derived is portable. -/
theorem Derives.portable {phrase : Phrase} (derivation : Derives text phrase rest) :
    Portable (fun text rest => Derives text phrase rest) text rest := by
  have bracket {c : Char} {text rest : List Char} (after : After text (c :: rest)) :
      Portable (fun text rest => After text (c :: rest)) text rest :=
    portable_stands [c] after
  -- each form is portable part by part, and the parts derive it wherever they stand
  induction derivation with
  | letIn mark binder equals _ semicolon _ value scope =>
      refine ((portable_stands _ mark).comp <| (portable_word binder).comp <|
        (bracket equals).comp <| value.comp <| (bracket semicolon).comp scope).imp ?_
      rintro text rest ⟨_, mark, _, binder, _, equals, _, value, _, semicolon, scope⟩
      exact .letIn mark binder equals value semicolon scope
  | dup mark binder binder' equals _ semicolon _ value scope =>
      refine ((portable_stands _ mark).comp <| (portable_word binder).comp <|
        (portable_word binder').comp <| (bracket equals).comp <| value.comp <|
        (bracket semicolon).comp scope).imp ?_
      rintro text rest ⟨_, mark, _, binder, _, binder', _, equals, _, value, _, semicolon, scope⟩
      exact .dup mark binder binder' equals value semicolon scope
  | lam isMark marked binder _ scope =>
      refine ((bracket marked).comp <| (portable_word binder).comp scope).imp ?_
      rintro text rest ⟨_, marked, _, binder, scope⟩
      exact .lam isMark marked binder scope
  | bareCtr named capital =>
      exact (portable_word named).imp fun _ _ named => .bareCtr named capital
  | ctr opened named capital _ closed inner =>
      refine ((bracket opened).comp <| (portable_word named).comp <|
        inner.comp (bracket closed)).imp ?_
      rintro text rest ⟨_, opened, _, named, _, inner, closed⟩
      exact .ctr opened named capital inner closed
  | op2 opened symbol left right closed first second =>
      have takes := Nat.lt_trans closed.length_lt (Nat.lt_trans right.length_lt left.length_lt)
      refine ((bracket opened).comp <| portable_symbol_comp symbol
        (first.comp <| second.comp (bracket closed)) takes).imp ?_
      rintro text rest ⟨_, opened, _, symbol, _, first, _, second, closed⟩
      exact .op2 opened symbol first second closed
  | unit opened closed =>
      refine ((bracket opened).comp (bracket closed)).imp ?_
      rintro text rest ⟨_, opened, closed⟩
      exact .unit opened closed
  | app opened arguments row closed inner =>
      refine ((bracket opened).comp <|
        (inner.startsArguments arguments row.length_lt_dropGap).comp (bracket closed)).imp ?_
      rintro text rest ⟨_, opened, _, ⟨arguments, inner⟩, closed⟩
      exact .app opened arguments inner closed
  | num named digits small =>
      exact (portable_word named).imp fun _ _ named => .num named digits small
  | @chr _ _ c quoted =>
      exact (portable_stands ['\'', c, '\''] quoted).imp fun _ _ quoted => .chr quoted
  | @str _ content _ delimiter isDelimiter pure quoted =>
      have literal (rest : List Char) : delimiter :: (content ++ delimiter :: rest) =
          (delimiter :: (content ++ [delimiter])) ++ rest := by simp
      rw [literal] at quoted
      refine (portable_stands _ quoted).imp fun text rest quoted => ?_
      rw [Stands, ← literal] at quoted
      exact .str isDelimiter pure quoted
  | @openStr text content delimiter isDelimiter pure quoted =>
      refine ⟨text, [delimiter], (List.append_nil _).symm, absurd rfl, fun rest' _ => ?_⟩
      refine ⟨replaces_delimiter isDelimiter, .str isDelimiter pure ?_⟩
      obtain ⟨gap, isGap, rfl⟩ := quoted
      exact ⟨gap, isGap, by simp⟩
  | lst opened _ closed inner =>
      refine ((bracket opened).comp <| inner.comp (bracket closed)).imp ?_
      rintro text rest ⟨_, opened, _, inner, closed⟩
      exact .lst opened inner closed
  | @var text rest name named small notLet notDup =>
      obtain ⟨isName, ends, gap, isGap, rfl⟩ := named
      refine portable_of_forall (List.append_assoc ..).symm fun rest' replaces => ?_
      refine .var ⟨isName, replaces.endsName ends, gap, isGap, List.append_assoc ..⟩ small ?_ ?_
      · exact replaces.not_mark_prefix isName ends "let" rfl (by decide) notLet
      · exact replaces.not_mark_prefix isName ends "dup" rfl (by decide) notDup
  | noTerms => exact portable_of_forall (List.nil_append _).symm fun _ _ => .noTerms
  | moreTerms _ _ first others =>
      refine (first.comp others).imp ?_
      rintro text rest ⟨_, first, others⟩
      exact .moreTerms first others
  | noItems => exact portable_of_forall (List.nil_append _).symm fun _ _ => .noItems
  | moreItems _ _ first others =>
      refine (first.comp others).imp ?_
      rintro text rest ⟨_, first, others⟩
      exact .moreItems first others
  | commaItems _ comma _ first others =>
      refine (first.comp <| (bracket comma).comp others).imp ?_
      rintro text rest ⟨_, first, _, comma, others⟩
      exact .commaItems first comma others

/-! ## Reading in another place -/

/-- What the reader reads depends on nothing but the text that it takes: a term that is read from
`used` before a text that is not empty is read from `used` in any other place, if no name goes on
after it there and no space is new after it. -/
theorem reads_used_anywhere (before used rest : List Char) (left : rest ≠ []) (term : Term)
    (d : Cursor)
    (read : (Parser.term (.ofIndex (before ++ used ++ rest) before.length)).outcome = .done term d)
    (stopped : d.index (before ++ used ++ rest).length = before.length + used.length)
    (before' rest' : List Char) (ends : EndsName rest')
    (space : rest'.head? = some ' ' → rest.head? = some ' ') :
    ∃ e, (Parser.term (.ofIndex (before' ++ used ++ rest') before'.length)).outcome =
        .done term e ∧
      e.index (before' ++ used ++ rest').length = before'.length + used.length := by
  have places (before rest : List Char) :
      (before ++ used ++ rest).drop before.length = used ++ rest ∧
        (before ++ used ++ rest).drop (before.length + used.length) = rest := by
    simp
  rw [(Parser.forward_term.onward read).exists_ofIndex, stopped] at read
  obtain ⟨-, -, derivation⟩ := outcome_term_ofIndex_iff.mp read
  rw [(places before rest).1, (places before rest).2] at derivation
  obtain ⟨own, closing, split, closed, elsewhere⟩ := derivation.portable
  obtain rfl := List.append_cancel_right split
  obtain rfl := closed left
  obtain ⟨-, derivation'⟩ := elsewhere rest' (.inr ⟨ends, space⟩)
  refine ⟨.ofIndex _ (before'.length + used.length), ?_, Cursor.index_ofIndex ..⟩
  refine outcome_term_ofIndex_iff.mpr ⟨by simp, by simp, ?_⟩
  rwa [(places before' rest').1, (places before' rest').2]

/-- An abstraction that is read before a closing bracket is read at the end of a text as well. -/
theorem reads_used_anywhere_lam :
    (∃ e, (Parser.term (.ofIndex (['('] ++ ['@', 'x', ' ', 'x'] ++ [')']) 1)).outcome =
        .done (.lam "x" (.var "x")) e ∧ e.index 6 = 5) ∧
      ∃ e, (Parser.term (.ofIndex ([] ++ ['@', 'x', ' ', 'x'] ++ []) 0)).outcome =
        .done (.lam "x" (.var "x")) e ∧ e.index 4 = 4 := by
  have body : Derives [' ', 'x', ')'] (.term (.var "x")) [')'] :=
    .var ⟨by decide, endsName_cons rfl, .space _⟩ (by decide) (by decide) (by decide)
  have derivation : Derives ['@', 'x', ' ', 'x', ')'] (.term (.lam "x" (.var "x"))) [')'] :=
    .lam (.inr rfl) (.refl _) ⟨by decide, endsName_cons rfl, .refl _⟩ body
  have read := outcome_term_ofIndex_iff.mpr
    (⟨by decide, by decide, derivation⟩ : DerivesAt ['(', '@', 'x', ' ', 'x', ')'] 1 5 _)
  have stopped := Cursor.index_ofIndex ['(', '@', 'x', ' ', 'x', ')'] 5
  exact ⟨⟨_, read, stopped⟩,
    reads_used_anywhere ['('] ['@', 'x', ' ', 'x'] [')'] nofun _ _ read stopped [] [] nofun nofun⟩

end Termbook
