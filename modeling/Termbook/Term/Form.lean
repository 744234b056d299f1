import Termbook.Reading.Repeat
import Termbook.Text.Literal

/-! # The forms of terms

A term is written in one of eleven forms. Each form has an opening, which tells from what stands
here whether the form applies, and a body, which reads the term. Bodies take the parser of subterms
as an argument; `Termbook.Term.Reader` ties the knot. -/

namespace Termbook

/-- The written forms of terms. -/
inductive Form where
  /-- A local definition, `let x = e; b`. -/
  | letIn
  /-- A duplication, `dup x y = e; b`. -/
  | dup
  /-- An abstraction, `λx b` or `@x b`. -/
  | lam
  /-- A constructor, `Name` or `(Name a b)`. -/
  | ctr
  /-- A binary operation, `(+ a b)`. -/
  | op2
  /-- An application `(f a b)`, or a term in brackets. -/
  | app
  /-- A number. -/
  | num
  /-- A character between single quotes. -/
  | chr
  /-- A string literal. -/
  | str
  /-- A list, `[a, b]`. -/
  | lst
  /-- A variable. -/
  | var
  deriving DecidableEq, Repr

namespace Form

/-- All forms, in the order in which they are tried: the keywords come before the variables, and
constructors and operations before the applications, whose opening they share. -/
def all : List Form := [letIn, dup, lam, ctr, op2, app, num, chr, str, lst, var]

/-- The label under which an accepted form is noted. -/
def label : Form → String
  | letIn => "let"
  | dup => "dup"
  | lam => "lam"
  | ctr => "ctr"
  | op2 => "op2"
  | app => "app"
  | num => "num"
  | chr => "chr"
  | str => "str"
  | lst => "lst"
  | var => "var"

/-- The keyword of a local definition, with the space that ends it. -/
def letMark : List Char := ['l', 'e', 't', ' ']

/-- The keyword of a duplication, with the space that ends it. -/
def dupMark : List Char := ['d', 'u', 'p', ' ']

/-- The characters with which operator symbols are written. -/
def operatorChars : List Char := ['+', '-', '*', '/', '%', '&', '|', '^', '<', '>', '=', '!']

/-- Whether a character starts a variable. -/
def startsVar (c : Char) : Bool :=
  c.isLower || c == '_' || c == '$'

/-- Read the mark of an abstraction. -/
def lamHead : Parser Bool := do
  if ← Parser.token ['λ'] then
    return true
  Parser.token ['@']

/-- Look for a capital letter, in brackets or not. -/
def ctrHead : Parser Bool := do
  let _ ← Parser.token ['(']
  Parser.charTest Char.isUpper

/-- Look for a bracket and an operator symbol. -/
def op2Head : Parser Bool := do
  let opened ← Parser.token ['(']
  let c ← Parser.nextChar
  return opened && operatorChars.contains c

/-- Tells whether a form applies here. -/
def opening : Form → Parser Bool
  | letIn => Parser.token letMark
  | dup => Parser.token dupMark
  | lam => lamHead
  | ctr => ctrHead
  | op2 => op2Head
  | app => Parser.token ['(']
  | num => Parser.charTest Char.isDigit
  | chr => Parser.charTest (· == '\'')
  | str => Parser.charTest isDelimiter
  | lst => Parser.charTest (· == '[')
  | var => Parser.charTest startsVar

/-! ## Bodies -/

variable (term : Parser Term)

/-- Read a local definition. -/
def letBody : Parser Term := do
  Parser.require letMark
  let name ← Parser.requireName
  Parser.require ['=']
  let expr ← term
  Parser.require [';']
  let body ← term
  return .letIn name expr body

/-- Read a duplication. -/
def dupBody : Parser Term := do
  Parser.require dupMark
  let first ← Parser.requireName
  let second ← Parser.requireName
  Parser.require ['=']
  let expr ← term
  Parser.require [';']
  let body ← term
  return .dup first second expr body

/-- Read an abstraction. -/
def lamBody : Parser Term := do
  if !(← lamHead) then
    Parser.fail "λ"
  let name ← Parser.requireName
  let body ← term
  return .lam name body

/-- Read a constructor. Without brackets it has no arguments. -/
def ctrBody : Parser Term := do
  let opened ← Parser.token ['(']
  let name ← Parser.requireName
  if opened then
    return .ctr name (← Parser.manyUntil (.token [')']) term)
  return .ctr name []

/-- Read one operator, if it stands here. -/
def operParser (oper : Oper) : Parser (Option Oper) := do
  if ← Parser.token oper.symbol.toList then
    return some oper
  return none

/-- Read an operator. -/
def operReader : Parser Oper :=
  Parser.grammar "Oper" (Oper.all.map operParser)

/-- Read a binary operation. -/
def op2Body : Parser Term := do
  Parser.require ['(']
  let oper ← operReader
  let left ← term
  let right ← term
  Parser.require [')']
  return .op2 oper left right

/-- The term that brackets make of the terms in them: a function with its arguments, or zero if
there is nothing. -/
def inBrackets : List Term → Term
  | [] => .num 0
  | func :: args => func.applyTo args

/-- Read an application. -/
def appBody : Parser Term :=
  inBrackets <$> Parser.sequence ['('] [')'] term

/-- Read a number. A name that is no numeral is refused at its start. -/
def numBody : Parser Term := do
  let start ← Parser.here
  let numeral ← Parser.requireName
  match readNumeral? numeral.toList with
  -- a name that starts with a digit is never a variable, so nothing else could stand here
  | some value => return .num value
  | none => Parser.failAt "number" start.skipGap

/-- Read a character in single quotes. Any one character may stand between them. -/
def chrBody : Parser Term := do
  Parser.require ['\'']
  match ← Parser.peek with
  | none => Parser.failAt "character" (← Parser.here)
  | some c =>
      Parser.advance
      if !(← Parser.exactly ['\'']) then
        Parser.failAt "'" (← Parser.here)
      return .ofChar c

/-- Read a string literal: up to the delimiter with which it starts, or up to the end of the text
where that does not come again. At the end of the text there is nothing to start with, and the fault
there only fills the case: the form's opening has seen a delimiter. -/
def strBody : Parser Term := fun c =>
  let place := c.skipGap
  match place.rest with
  | [] => .failed (String.ofList [doubleQuote]) place
  | delimiter :: rest =>
      let content := rest.takeWhile (· != delimiter)
      -- one step for each delimiter; at the end of the text there is none left for the second
      .done (.ofText content) (place.advance (content.length + 2))

/-- Read an item of a list, with the comma that may follow it. -/
def lstItem : Parser Term := do
  let item ← term
  let _ ← Parser.token [',']
  return item

/-- Read a list. -/
def lstBody : Parser Term :=
  Term.ofList <$> Parser.sequence ['['] [']'] (lstItem term)

/-- Read a variable. -/
def varBody : Parser Term :=
  Term.var <$> Parser.requireName

/-- Read a term in a form that applies. -/
def body : Form → Parser Term
  | letIn => letBody term
  | dup => dupBody term
  | lam => lamBody term
  | ctr => ctrBody term
  | op2 => op2Body term
  | app => appBody term
  | num => numBody
  | chr => chrBody
  | str => strBody
  | lst => lstBody term
  | var => varBody

/-- Read a term in a form, if the form applies. -/
def parser (form : Form) : Parser (Option Term) :=
  Parser.guarded form.label form.opening (form.body term)

/-- The alternatives for a term. -/
def parsers : List (Parser (Option Term)) :=
  all.map (parser term)

end Form

end Termbook
