/-! # Locations

Where a reader of a text is told that something stands: a line and a column, both counted from one.
Only a newline ends a line. -/

namespace Termbook

/-- A line and a column in it, both counted from one. -/
structure Location where
  /-- One more than the number of newlines before the place. -/
  line : Nat
  /-- One more than the number of characters between the start of the line and the place. -/
  column : Nat
  deriving DecidableEq, Repr

namespace Location

/-- The first place of a text. -/
def first : Location := ⟨1, 1⟩

/-- The location after a character. -/
def next (place : Location) (c : Char) : Location :=
  if c = '\n' then ⟨place.line + 1, 1⟩ else ⟨place.line, place.column + 1⟩

/-- The location reached from `place` after `count` characters of the text that follows it. Past
the end of the text the last line goes on for ever. -/
def walk (place : Location) : List Char → (count : Nat) → Location
  | _, 0 => place
  | [], count => ⟨place.line, place.column + count⟩
  | c :: rest, count + 1 => walk (place.next c) rest count

/-- The location of an index in a text. -/
def ofIndex (text : List Char) (index : Nat) : Location :=
  walk first text index

/-- Index zero is the first place of any text. -/
@[simp] theorem ofIndex_zero (text : List Char) : ofIndex text 0 = first := by
  cases text <;> rfl

end Location

end Termbook
