import Termbook.Reading.Choice

/-! # Repetition

Elements are read up to a closing. Since the end of the text is no closing, a closing that never
comes is a fault there. -/

namespace Termbook

/-- What ends a repetition: a parser that tells whether the end stands here, and how the end is
called where it is missing. -/
structure Closing where
  /-- What is expected where the text ends too early. -/
  label : String
  /-- Reads the end, if it stands here. -/
  parser : Parser Bool

namespace Closing

/-- A closing that is a fixed text. -/
def token (pattern : List Char) : Closing := ⟨String.ofList pattern, Parser.token pattern⟩

/-- A closing of any other kind. -/
def ofParser (parser : Parser Bool) : Closing := ⟨"end of sequence", parser⟩

end Closing

namespace Parser

variable {α : Type}

/-- Read the closing if it stands here, and nothing otherwise. -/
def closes (closing : Closing) : Parser Bool := fun c =>
  match closing.parser c with
  | ⟨trace, .done false _⟩ => ⟨trace, .done false c⟩
  | reply => reply

/-- Read elements up to the closing. Each is told its number, counted on from `number`. -/
def manyUntilFrom (closing : Closing) (element : Nat → Parser α) (number : Nat) :
    Parser (List α) :=
  fix (fun again number => do
    if ← closes closing then
      return []
    if ← lookAhead atEnd then
      fail closing.label
    let value ← element number
    return value :: (← again (number + 1))) number

/-- Read elements up to the closing. -/
def manyUntil (closing : Closing) (element : Parser α) : Parser (List α) :=
  manyUntilFrom closing (fun _ => element) 0

/-- Read a text, then elements up to another text. -/
def sequence (opening closing : List Char) (element : Parser α) : Parser (List α) := do
  require opening
  manyUntil (.token closing) element

end Parser

end Termbook
