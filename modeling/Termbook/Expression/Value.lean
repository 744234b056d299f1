import Termbook.Book.Basic
import Termbook.Reading.Cursor

/-! # Values of parser expressions -/

namespace Termbook

/-- What a parser expression can answer. -/
inductive Value where
  /-- No value. -/
  | null
  /-- The answer to a question. -/
  | bool (answer : Bool)
  /-- A text, such as a name. -/
  | text (content : String)
  /-- The values of a repetition. -/
  | list (values : List Value)
  /-- A term. -/
  | term (term : Term)
  /-- A rule. -/
  | rule (rule : Rule)
  /-- A book. -/
  | book (book : Book)
  /-- An operator. -/
  | oper (oper : Oper)
  /-- A place. -/
  | place (place : Cursor)

namespace Value

/-- The value of a parser that may have none. -/
def ofOption {α : Type} (value : α → Value) : Option α → Value
  | none => null
  | some a => value a

/-- Whether a value counts as consent where a question was asked. -/
def accepts : Value → Bool
  | null => false
  | bool answer => answer
  | text content => !content.isEmpty
  | list values => !values.isEmpty
  | _ => true

/-- A value as the result of an alternative: only `null` is none. -/
def toOption : Value → Option Value
  | null => none
  | value => some value

/-- A value as a result that may be left out: `null` and `false` are none. -/
def present : Value → Option Value
  | null | bool false => none
  | value => some value

end Value

end Termbook
