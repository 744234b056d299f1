import Termbook.Book.Reader
import Termbook.Expression.Value

/-! # Parser expressions

The language of parsers that can be put together from this library's own: tokens, the readers of
terms, rules and books with their openings and bodies, and the combinators over all of these. An
expression is evaluated to a parser of values, and a list of expressions is run step by step from
one place. -/

namespace Termbook

/-- A parser expression. -/
inductive Expression where
  /-- The character here. -/
  | peek
  /-- Read the character here. -/
  | advance
  /-- Read the gap here. -/
  | skip
  /-- Read the blanks here. -/
  | skipBlanks
  /-- Read the comment here. -/
  | skipComment
  /-- Read the character after the gap. -/
  | nextChar
  /-- Read a name, which may be empty. -/
  | name
  /-- Read a name. -/
  | requireName
  /-- Read a gap and ask for the end of the text. -/
  | atEnd
  /-- Tell the place. -/
  | place
  /-- Read a text after the gap, if it is there. -/
  | token (pattern : List Char)
  /-- Read a text right here, if it is there. -/
  | exactly (pattern : List Char)
  /-- Read a text after the gap. -/
  | require (pattern : List Char)
  /-- Read a text after the gap, if it is there, and lend its name to a repetition. -/
  | closing (pattern : List Char)
  /-- Read a character and test it. -/
  | charTest (test : Char → Bool)
  /-- Read an operator, if it is there. -/
  | operator (wanted : Oper)
  /-- Read any operator. -/
  | oper
  /-- Read a term. -/
  | term
  /-- Read a rule, if it is there. -/
  | rule
  /-- Read a book. -/
  | book
  /-- Read an item of a list. -/
  | lstItem
  /-- Read a term in one form, if the form applies. -/
  | form (wanted : Form)
  /-- Ask whether a form applies. -/
  | opening (wanted : Form)
  /-- Read a term in one form, without asking. -/
  | body (wanted : Form)
  /-- Read nothing and answer nothing. -/
  | nothing
  /-- Go back where there is no answer. -/
  | maybe (parser : Expression)
  /-- Read if the opening accepts. -/
  | guard (opening body : Expression)
  /-- Read if the opening accepts, and note it. -/
  | guarded (label : String) (opening body : Expression)
  /-- Read elements up to a closing. -/
  | manyUntil (closing element : Expression)
  /-- Read elements between two texts. -/
  | sequence (opening closing : List Char) (element : Expression)
  /-- Read by the first alternative that answers. -/
  | choice (alternatives : List Expression)
  /-- Read by the first alternative that answers, and fail if there is none. -/
  | grammar (label : String) (alternatives : List Expression)

namespace Expression

/-- The closing that a parser makes when it stands for the end of a repetition: only a closing text
has a name of its own. -/
def closingOf (expression : Expression) (parser : Parser Bool) : Closing :=
  match expression with
  | closing pattern => ⟨String.ofList pattern, parser⟩
  | _ => .ofParser parser

mutual

/-- The parser that an expression denotes. -/
def eval : Expression → Parser Value
  | peek => Value.ofOption (fun c => .text c.toString) <$> Parser.peek
  | advance => (fun _ => .null) <$> Parser.advance
  | skip => Value.bool <$> Parser.skip
  | skipBlanks => Value.bool <$> Parser.skipBlanks
  | skipComment => Value.bool <$> Parser.skipComment
  | nextChar => (fun c => .text c.toString) <$> Parser.nextChar
  | name => Value.text <$> Parser.name
  | requireName => Value.text <$> Parser.requireName
  | atEnd => Value.bool <$> Parser.atEnd
  | place => Value.place <$> Parser.here
  | token pattern => Value.bool <$> Parser.token pattern
  | exactly pattern => Value.bool <$> Parser.exactly pattern
  | require pattern => (fun _ => .null) <$> Parser.require pattern
  | closing pattern => Value.bool <$> Parser.token pattern
  | charTest test => Value.bool <$> Parser.charTest test
  | operator wanted => Value.ofOption .oper <$> Form.operParser wanted
  | oper => Value.oper <$> Form.operReader
  | term => Value.term <$> Parser.term
  | rule => Value.ofOption .rule <$> Parser.rule
  | book => Value.book <$> Parser.book
  | lstItem => Value.term <$> Form.lstItem Parser.term
  | form wanted => Value.ofOption .term <$> wanted.parser Parser.term
  | opening wanted => Value.bool <$> wanted.opening
  | body wanted => Value.term <$> wanted.body Parser.term
  | nothing => pure .null
  | maybe inner => Value.ofOption id <$> Parser.maybe (Value.present <$> inner.eval)
  | guard ask inner =>
      Value.ofOption id <$> Parser.guard (Value.accepts <$> ask.eval) inner.eval
  | guarded label ask inner =>
      Value.ofOption id <$> Parser.guarded label (Value.accepts <$> ask.eval) inner.eval
  | manyUntil stop element =>
      Value.list <$>
        Parser.manyUntil (stop.closingOf (Value.accepts <$> stop.eval)) element.eval
  | sequence first last element => Value.list <$> Parser.sequence first last element.eval
  | choice alternatives => Value.ofOption id <$> Parser.choice (evalAll alternatives)
  | grammar label alternatives => Parser.grammar label (evalAll alternatives)

/-- The alternatives that some expressions denote. -/
def evalAll : List Expression → List (Parser (Option Value))
  | [] => []
  | expression :: rest => (Value.toOption <$> expression.eval) :: evalAll rest

end

/-- Run expressions one after another. Each starts where the last one that succeeded stopped. In
place of an expression there may be the reason why it could not be put together, which is answered
as it is and reads nothing. -/
def run {ε : Type} : List (Except ε Expression) → Cursor → List (Except ε (Outcome Value))
  | [], _ => []
  | .error reason :: rest, start => .error reason :: run rest start
  | .ok expression :: rest, start =>
      let outcome := (expression.eval start).outcome
      match outcome with
      | .done _ next => .ok outcome :: run rest next
      | _ => .ok outcome :: run rest start

end Expression

end Termbook
