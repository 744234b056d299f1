import Termbook.Text.Visible

/-! # Quoted text

How a text is quoted inside a message: between quotation marks, with everything escaped that would
not show as itself. -/

namespace Termbook

/-- The hexadecimal digits of a number, with zeros in front up to `width` digits. -/
def hexDigits (width number : Nat) : List Char :=
  let digits := Nat.toDigits 16 number
  List.replicate (width - digits.length) '0' ++ digits

/-- A character as it stands between the quotation marks `quote`. -/
def escape (quote c : Char) : List Char :=
  if c = '\\' ∨ c = quote then ['\\', c]
  else if c = '\n' then ['\\', 'n']
  else if c = '\r' then ['\\', 'r']
  else if c = '\t' then ['\\', 't']
  else if isVisible c then [c]
  else if c.toNat ≤ 0xFF then ['\\', 'x'] ++ hexDigits 2 c.toNat
  else if c.toNat ≤ 0xFFFF then ['\\', 'u'] ++ hexDigits 4 c.toNat
  else ['\\', 'U'] ++ hexDigits 8 c.toNat

/-- A text in quotation marks: single ones, unless the text holds those and no double ones. -/
def quoted (text : String) : String :=
  let content := text.toList
  let quote := if content.contains '\'' && !content.contains '\x22' then '\x22' else '\''
  String.ofList (quote :: content.flatMap (escape quote) ++ [quote])

end Termbook
