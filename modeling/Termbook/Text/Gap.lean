import Termbook.Text.Blank

/-! # Gaps

A gap is what may stand before any token: blanks and line comments. A comment starts with `//` and
extends to just before the next newline, or to the end of the text. The functions here measure how
much of the front of a text is gap; a text is a list of characters throughout. -/

namespace Termbook

/-- The characters that open a comment. -/
def commentMark : List Char := ['/', '/']

/-- The length of the run of blanks at the front of a text. -/
def blankLength (text : List Char) : Nat :=
  (text.takeWhile isBlank).length

/-- The length of the comment at the front of a text, zero where no comment starts. -/
def commentLength (text : List Char) : Nat :=
  if commentMark.isPrefixOf text then (text.takeWhile (· != '\n')).length else 0

/-- The length of the gap at the front of a text, where `inComment` says that the text begins
inside a comment. A newline ends the comment and is itself counted as a blank. -/
def gapLengthFrom : (inComment : Bool) → List Char → Nat
  | _, [] => 0
  | true, c :: rest => 1 + gapLengthFrom (c != '\n') rest
  | false, c :: rest =>
      if isBlank c then 1 + gapLengthFrom false rest
      else if commentMark.isPrefixOf (c :: rest) then 1 + gapLengthFrom true rest
      else 0

/-- The length of the longest gap at the front of a text. -/
def gapLength (text : List Char) : Nat :=
  gapLengthFrom false text

end Termbook
