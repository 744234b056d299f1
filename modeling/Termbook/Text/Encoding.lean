/-! # Decoding files

A file's bytes become a text by strict UTF-8, after which every way to end a line is a newline. -/

namespace Termbook

/-- Write every line end as a newline: a carriage return, alone or before a newline, becomes one. -/
def unifyLineEnds : List Char → List Char
  | [] => []
  | '\r' :: '\n' :: rest => '\n' :: unifyLineEnds rest
  | c :: rest => (if c = '\r' then '\n' else c) :: unifyLineEnds rest

/-- The text of a file, if its bytes are UTF-8. A byte order mark stays in the text. -/
def decodeText? (bytes : ByteArray) : Option (List Char) :=
  (String.fromUTF8? bytes).map fun content => unifyLineEnds content.toList

/-- No carriage return is left in a text whose line ends are unified. -/
theorem carriageReturn_notMem_unifyLineEnds (text : List Char) : '\r' ∉ unifyLineEnds text := by
  fun_induction unifyLineEnds text <;> grind

/-- A text without carriage returns keeps its line ends. -/
theorem unifyLineEnds_eq_self {text : List Char} (none : '\r' ∉ text) :
    unifyLineEnds text = text := by
  fun_induction unifyLineEnds text <;> grind

end Termbook
