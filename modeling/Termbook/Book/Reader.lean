import Termbook.Term.Reader

/-! # Reading rules and books

A rule is a term, an equals sign and a term. Where no term or no equals sign stands there is no
rule, which is no fault; in a book, however, everything has to be a rule. -/

namespace Termbook

namespace Parser

/-- The parser of rules, which answers none where no rule stands. -/
def rule : Parser (Option Rule) :=
  maybe do
    let some lhs ← choice (Form.parsers term) | return none
    if ← token ['='] then
      let rhs ← term
      return some ⟨lhs, rhs⟩
    return none

/-- The parser of a rule of a book, which notes the rule under its number. -/
def numberedRule (number : Nat) : Parser Rule := do
  -- a rule is placed where it starts, after the gap
  let _ ← skip
  let place ← here
  let some read ← rule | failAt "definition" place
  note fun _ => .ruleRead number place read
  return read

/-- The parser of books: rules up to the end of the text. -/
def book : Parser Book :=
  Book.mk <$> manyUntilFrom (.ofParser atEnd) numberedRule 0

end Parser

/-- Read a rule at the front of a text, if there is one; what follows it is ignored. -/
def readRule (text : List Char) : Reply (Option Rule) :=
  Parser.rule (.start text)

/-- Read a text as a book. -/
def readBook (text : List Char) : Reply Book :=
  Parser.book (.start text)

end Termbook
