/-! # Names and numerals

The characters of a name, and the decimal numerals among names. Both classes are ASCII: a letter or
digit of another script ends a name. -/

namespace Termbook

/-- The characters of which names consist: ASCII letters and digits, underscore, dot and dollar. -/
def isNameChar (c : Char) : Bool :=
  c.isAlphanum || c == '_' || c == '.' || c == '$'

/-- The largest number that a term can hold. -/
def maxNumber : Nat := UInt64.size - 1

/-- The number that a numeral writes in decimal, leading zeros allowed; none if a character is no
digit, if there is none, or if the number takes more than 64 bits. -/
def readNumeral? (numeral : List Char) : Option UInt64 :=
  if numeral ≠ [] ∧ numeral.all Char.isDigit then
    let number := Nat.ofDigitChars 10 numeral 0
    if number ≤ maxNumber then some (UInt64.ofNat number) else none
  else none

end Termbook
