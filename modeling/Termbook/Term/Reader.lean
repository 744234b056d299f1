import Termbook.Term.Form

/-! # Reading terms -/

namespace Termbook

/-- The parser of terms. -/
def Parser.term : Parser Term :=
  fix (fun self _ => grammar "Term" (Form.parsers (self ()))) ()

/-- Read a term at the front of a text; what follows it is ignored. -/
def readTerm (text : List Char) : Reply Term :=
  Parser.term (.start text)

end Termbook
