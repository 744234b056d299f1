import Termbook.Term.Debug
import Termbook.Term.Printer

/-! # Rules and books

A rule sets one term equal to another; a book is a list of rules. -/

namespace Termbook

/-- A rule: the left side is to be read as the right side. -/
structure Rule where
  /-- The term that the rule defines. -/
  lhs : Term
  /-- What the rule defines it as. -/
  rhs : Term
  deriving DecidableEq, Repr

/-- A book of rules, in order. -/
structure Book where
  /-- The rules, first to last. -/
  rules : List Rule
  deriving DecidableEq, Repr

/-- The canonical text of a rule. -/
def Rule.render (rule : Rule) : String :=
  rule.lhs.render ++ " = " ++ rule.rhs.render

/-- The debug form of a rule. -/
def Rule.debug (rule : Rule) : String :=
  "Rule(lhs=" ++ rule.lhs.debug ++ ", rhs=" ++ rule.rhs.debug ++ ")"

/-- The canonical text of a book: one rule after another, with a newline between any two. -/
def Book.render (book : Book) : String :=
  "\n".intercalate (book.rules.map Rule.render)

/-- The debug form of a book. -/
def Book.debug (book : Book) : String :=
  "File(rules=[" ++ ", ".intercalate (book.rules.map Rule.debug) ++ "])"

end Termbook
