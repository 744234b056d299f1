import Termbook.Proofs.Name

/-! # The grammar of terms

What a stretch of text stands for, as a relation between the text from its start on and the text
after it: every token is preceded by a gap, and a name is always a whole run of name characters. The
relation knows no order among the forms and looks ahead only where the written language does, so it
says what the reader accepts without saying how. -/

namespace Termbook

/-- What a stretch of text may stand for. -/
inductive Phrase where
  /-- One term. -/
  | term (term : Term)
  /-- Terms in a row, as between brackets. -/
  | terms (terms : List Term)
  /-- Terms each of which may have a comma after it, as in a list. -/
  | items (items : List Term)

/-- `Symbol text oper rest`: after a gap at the front of `text` stands the symbol of an operator,
the longest one that stands there, and `rest` after it. Two slashes are no division but a
comment. -/
def Symbol (text : List Char) (oper : Oper) (rest : List Char) : Prop :=
  After text (oper.symbol.toList ++ rest) ∧ (oper = .div → rest.head? ≠ some '/') ∧
    ∀ other : Oper, other.symbol.toList <+: oper.symbol.toList ++ rest →
      other.symbol.length ≤ oper.symbol.length

/-- The first significant character of a text starts neither a constructor nor an operator. -/
def StartsArguments (text : List Char) : Prop :=
  ∀ c tail, After text (c :: tail) → Significant (c :: tail) →
    c.isUpper = false ∧ c ∉ Form.operatorChars

/-- It is enough that a solid character stands first that starts neither of the two. -/
theorem startsArguments_of_after {text rest : List Char} {c : Char} (after : After text (c :: rest))
    (solid : isSolid c = true) (notUpper : c.isUpper = false)
    (notOperator : c ∉ Form.operatorChars) : StartsArguments text := by
  intro first tail after' significant
  have same := after.unique (significant_cons solid) significant after'
  cases same
  exact ⟨notUpper, notOperator⟩

/-- `Derives text phrase rest`: at the front of `text` stands a phrase, and `rest` after it. -/
inductive Derives : List Char → Phrase → List Char → Prop where
  /-- `let x = e; b` -/
  | letIn {text s₁ s₂ s₃ s₄ s₅ rest : List Char} {name : String} {expr body : Term}
      (mark : After text (Form.letMark ++ s₁)) (binder : Word s₁ name s₂)
      (equals : After s₂ ('=' :: s₃)) (value : Derives s₃ (.term expr) s₄)
      (semicolon : After s₄ (';' :: s₅)) (scope : Derives s₅ (.term body) rest) :
      Derives text (.term (.letIn name expr body)) rest
  /-- `dup x y = e; b` -/
  | dup {text s₁ s₂ s₃ s₄ s₅ s₆ rest : List Char} {first second : String} {expr body : Term}
      (mark : After text (Form.dupMark ++ s₁)) (binder : Word s₁ first s₂)
      (binder' : Word s₂ second s₃) (equals : After s₃ ('=' :: s₄))
      (value : Derives s₄ (.term expr) s₅) (semicolon : After s₅ (';' :: s₆))
      (scope : Derives s₆ (.term body) rest) :
      Derives text (.term (.dup first second expr body)) rest
  /-- `λx b` or `@x b` -/
  | lam {text s₁ s₂ rest : List Char} {mark : Char} {name : String} {body : Term}
      (isMark : mark = 'λ' ∨ mark = '@') (marked : After text (mark :: s₁))
      (binder : Word s₁ name s₂) (scope : Derives s₂ (.term body) rest) :
      Derives text (.term (.lam name body)) rest
  /-- `Name` -/
  | bareCtr {text rest : List Char} {name : String} (named : Word text name rest)
      (capital : Form.headIs Char.isUpper name.toList = true) :
      Derives text (.term (.ctr name [])) rest
  /-- `(Name a b)` -/
  | ctr {text s₁ s₂ s₃ rest : List Char} {name : String} {args : List Term}
      (opened : After text ('(' :: s₁)) (named : Word s₁ name s₂)
      (capital : Form.headIs Char.isUpper name.toList = true) (inner : Derives s₂ (.terms args) s₃)
      (closed : After s₃ (')' :: rest)) :
      Derives text (.term (.ctr name args)) rest
  /-- `(+ a b)` -/
  | op2 {text s₁ s₂ s₃ s₄ rest : List Char} {oper : Oper} {left right : Term}
      (opened : After text ('(' :: s₁)) (symbol : Symbol s₁ oper s₂)
      (first : Derives s₂ (.term left) s₃) (second : Derives s₃ (.term right) s₄)
      (closed : After s₄ (')' :: rest)) :
      Derives text (.term (.op2 oper left right)) rest
  /-- `()` -/
  | unit {text s₁ rest : List Char} (opened : After text ('(' :: s₁))
      (closed : After s₁ (')' :: rest)) :
      Derives text (.term (.num 0)) rest
  /-- `(f a b)`, or a term in brackets -/
  | app {text s₁ s₂ rest : List Char} {func : Term} {args : List Term}
      (opened : After text ('(' :: s₁)) (arguments : StartsArguments s₁)
      (inner : Derives s₁ (.terms (func :: args)) s₂) (closed : After s₂ (')' :: rest)) :
      Derives text (.term (func.applyTo args)) rest
  /-- `42` -/
  | num {text rest : List Char} {numeral : String} (named : Word text numeral rest)
      (digits : ∀ c ∈ numeral.toList, c.isDigit = true)
      (small : Nat.ofDigitChars 10 numeral.toList 0 < 2 ^ 64) :
      Derives text (.term (.num (UInt64.ofNat (Nat.ofDigitChars 10 numeral.toList 0)))) rest
  /-- A character between single quotes. -/
  | chr {text rest : List Char} {c : Char} (quoted : After text ('\'' :: c :: '\'' :: rest)) :
      Derives text (.term (.ofChar c)) rest
  /-- A text between two equal delimiters. -/
  | str {text content rest : List Char} {delimiter : Char}
      (isDelimiter : isDelimiter delimiter = true) (pure : delimiter ∉ content)
      (quoted : After text (delimiter :: (content ++ delimiter :: rest))) :
      Derives text (.term (.ofText content)) rest
  /-- A text from a delimiter up to the end. -/
  | openStr {text content : List Char} {delimiter : Char}
      (isDelimiter : isDelimiter delimiter = true) (pure : delimiter ∉ content)
      (quoted : After text (delimiter :: content)) :
      Derives text (.term (.ofText content)) []
  /-- `[a, b]` -/
  | lst {text s₁ s₂ rest : List Char} {items : List Term} (opened : After text ('[' :: s₁))
      (inner : Derives s₁ (.items items) s₂) (closed : After s₂ (']' :: rest)) :
      Derives text (.term (.ofList items)) rest
  /-- `x` -/
  | var {text rest : List Char} {name : String} (named : Word text name rest)
      (small : Form.headIs Form.startsVar name.toList = true)
      (notLet : ¬ Form.letMark <+: name.toList ++ rest)
      (notDup : ¬ Form.dupMark <+: name.toList ++ rest) :
      Derives text (.term (.var name)) rest
  /-- No terms. -/
  | noTerms {text : List Char} : Derives text (.terms []) text
  /-- A term and more terms. -/
  | moreTerms {text mid rest : List Char} {term : Term} {terms : List Term}
      (first : Derives text (.term term) mid) (others : Derives mid (.terms terms) rest) :
      Derives text (.terms (term :: terms)) rest
  /-- No items. -/
  | noItems {text : List Char} : Derives text (.items []) text
  /-- An item without a comma and more items. -/
  | moreItems {text mid rest : List Char} {item : Term} {items : List Term}
      (first : Derives text (.term item) mid) (others : Derives mid (.items items) rest) :
      Derives text (.items (item :: items)) rest
  /-- An item with a comma and more items. -/
  | commaItems {text s₁ s₂ rest : List Char} {item : Term} {items : List Term}
      (first : Derives text (.term item) s₁) (comma : After s₁ (',' :: s₂))
      (others : Derives s₂ (.items items) rest) :
      Derives text (.items (item :: items)) rest

/-- `DerivesAt code i j term`: in `code`, a term stands from index `i` up to index `j`. -/
def DerivesAt (code : List Char) (i j : Nat) (term : Term) : Prop :=
  i ≤ code.length ∧ j ≤ code.length ∧ Derives (code.drop i) (.term term) (code.drop j)

end Termbook
