import Termbook.Reading.Parser
import Termbook.Text.Name

/-! # Tokens

The parsers of single characters, fixed texts and names. Most of them pass over the gap before their
token; those that do not say so. -/

namespace Termbook

namespace Parser

/-- The character here, without reading it and without passing over a gap. -/
def peek : Parser (Option Char) := fun c => .done c.rest.head? c

/-- Read the character here, whatever it is; at the end read nothing. -/
def advance : Parser Unit := fun c => .done () (c.advance 1)

/-- Read the blanks here; tell whether there were any. -/
def skipBlanks : Parser Bool := fun c =>
  let next := c.advance (blankLength c.rest)
  .done (next.remaining != c.remaining) next

/-- Read the comment here; tell whether there was one. -/
def skipComment : Parser Bool := fun c =>
  let next := c.advance (commentLength c.rest)
  .done (next.remaining != c.remaining) next

/-- Read the gap here; tell whether there was any. -/
def skip : Parser Bool := fun c =>
  .done (c.skipGap.remaining != c.remaining) c.skipGap

/-- Read the character after the gap, or answer the null character at the end of the text. -/
def nextChar : Parser Char := fun c =>
  let place := c.skipGap
  .done (place.rest.head?.getD '\x00') (place.advance 1)

/-- Read a gap and tell whether the text ends there. -/
def atEnd : Parser Bool := fun c =>
  let place := c.skipGap
  .done place.rest.isEmpty place

/-- Read a text that stands right here, without a gap. -/
def exactly (pattern : List Char) : Parser Bool := fun c =>
  if c.startsWith pattern then .done true (c.advance pattern.length) else .done false c

/-- Read a text after the gap; if it is not there read nothing, not even the gap. -/
def token (pattern : List Char) : Parser Bool := fun c =>
  let place := c.skipGap
  if place.startsWith pattern then .done true (place.advance pattern.length) else .done false c

/-- Read a text after the gap, and fail where it is not there. -/
def require (pattern : List Char) : Parser Unit := fun c =>
  let place := c.skipGap
  if place.startsWith pattern then .done () (place.advance pattern.length)
  else .failed (String.ofList pattern) place

/-- Read the longest run of name characters after the gap, which may be empty. -/
def name : Parser String := fun c =>
  let place := c.skipGap
  let letters := place.rest.takeWhile isNameChar
  .done (String.ofList letters) (place.advance letters.length)

/-- Read a name after the gap, and fail where none starts. -/
def requireName : Parser String := fun c =>
  let place := c.skipGap
  let letters := place.rest.takeWhile isNameChar
  if letters.isEmpty then .failed "name" place
  else .done (String.ofList letters) (place.advance letters.length)

/-- Read the character after the gap and test it. -/
def charTest (test : Char → Bool) : Parser Bool :=
  test <$> nextChar

end Parser

end Termbook
