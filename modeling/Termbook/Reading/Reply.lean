import Termbook.Book.Basic
import Termbook.Reading.Cursor
import Termbook.Text.Location

/-! # Replies

What a parser answers: what it noted on the way, and how it ended. Noting is part of the answer and
not an effect, so whether the notes are shown to anyone has no bearing on the reading. -/

namespace Termbook

/-- Something that a parser notes while it reads. -/
inductive Event where
  /-- An alternative was accepted by its opening, at the place where its opening was tried. -/
  | accepted (label : String) (place : Cursor)
  /-- A rule of a book was read whole: its number from zero, its place and the rule. -/
  | ruleRead (number : Nat) (place : Cursor) (rule : Rule)
  deriving DecidableEq

/-- The line that shows an event of reading a text with `length` characters. A rule's text may add
further lines to it. -/
def Event.line (length : Nat) : Event → String
  | accepted label place => "[PARSE] " ++ label ++ " @ " ++ toString (place.index length)
  | ruleRead number place rule =>
      "[PARSE] Read rule " ++ toString number ++ " @ " ++ toString (place.index length) ++ ": " ++
        rule.render

/-- Why a reading failed: what was expected, and where. -/
structure Fault where
  /-- The label of what was expected. -/
  expected : String
  /-- The place where it was expected. -/
  place : Cursor
  deriving DecidableEq

/-- A fault as it is reported to the writer of the text. -/
structure ParseError where
  /-- The label of what was expected. -/
  expected : String
  /-- The index in the text where it was expected. -/
  index : Nat
  /-- The line and column of that index. -/
  location : Location
  deriving DecidableEq, Repr

/-- The report of a fault in a text. -/
def Fault.report (text : List Char) (fault : Fault) : ParseError :=
  let index := fault.place.index text.length
  ⟨fault.expected, index, Location.ofIndex text index⟩

/-- What is said about a fault. -/
def ParseError.message (error : ParseError) : String :=
  "Expected `" ++ error.expected ++ "` at line " ++ toString error.location.line ++ ", column " ++
    toString error.location.column

/-- How a parser ends. -/
inductive Outcome (α : Type) where
  /-- With a value, and the place where reading goes on. -/
  | done (value : α) (next : Cursor)
  /-- With a fault. -/
  | failed (fault : Fault)
  /-- Never: it comes back to a place where it has been without having read anything. -/
  | endless
  deriving DecidableEq

/-- The answer of a parser: what it noted, in order, and how it ended. -/
structure Reply (α : Type) where
  /-- The events noted, first to last. -/
  trace : List Event
  /-- How the parser ended. -/
  outcome : Outcome α
  deriving DecidableEq

namespace Reply

/-- End with a value, and nothing noted. -/
def done {α : Type} (value : α) (next : Cursor) : Reply α := ⟨[], .done value next⟩

/-- End with a fault, and nothing noted. -/
def failed {α : Type} (expected : String) (place : Cursor) : Reply α :=
  ⟨[], .failed ⟨expected, place⟩⟩

/-- Never end, and note nothing. -/
def endless {α : Type} : Reply α := ⟨[], .endless⟩

/-- The same reply with earlier events before its own. -/
def after {α : Type} (earlier : List Event) (reply : Reply α) : Reply α :=
  ⟨earlier ++ reply.trace, reply.outcome⟩

@[simp] theorem after_nil {α : Type} (reply : Reply α) : reply.after [] = reply := rfl

@[simp] theorem outcome_after {α : Type} (earlier : List Event) (reply : Reply α) :
    (reply.after earlier).outcome = reply.outcome := rfl

@[simp] theorem trace_after {α : Type} (earlier : List Event) (reply : Reply α) :
    (reply.after earlier).trace = earlier ++ reply.trace := rfl

end Reply

end Termbook
