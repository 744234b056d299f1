import Termbook.Command.Path

/-! # Command line arguments

The first argument is the path of the text to read; the others are words in any order, and unknown
ones are passed over. -/

namespace Termbook

/-- What a text is read as. -/
inductive Mode where
  /-- One term. -/
  | term
  /-- One rule. -/
  | rule
  /-- A book of rules. -/
  | book
  deriving DecidableEq, Repr

/-- The word that names a mode. -/
def Mode.word : Mode → String
  | term => "term"
  | rule => "rule"
  | book => "file"

/-- The mode that a word names. -/
def Mode.ofWord? (word : String) : Option Mode :=
  [term, rule, book].find? (·.word == word)

/-- What the command line asks for. -/
structure Config where
  /-- The path of the text, absolute and in normal form. -/
  inputPath : String
  /-- What the text is read as. -/
  mode : Mode
  /-- Whether the reading is to be traced. -/
  debug : Bool
  /-- Whether the time is to be told. -/
  timing : Bool
  deriving DecidableEq, Repr

/-- The configuration that arguments ask for, as seen from a directory; none if there is no
argument. The first word that names a mode decides it, and without one a book is read. -/
def Config.ofArgs (directory : String) : (args : List String) → Option Config
  | [] => none
  | path :: words =>
      some {
        inputPath := Path.absolute directory path
        mode := (words.findSome? Mode.ofWord?).getD .book
        debug := words.contains "debug"
        timing := words.contains "time" }

end Termbook
