import Termbook.Text.Gap

/-! # Cursors

A place in a text, seen from there to the end. What a reader does depends on nothing else, so a
cursor holds no text before its place, and its index is told only when the text's length is. A place
may also lie beyond the end of its text. -/

namespace Termbook

/-- A place in a text: what is left to read, and how far beyond the end of the text the place is. -/
structure Cursor where
  /-- The text from the place on. -/
  rest : List Char
  /-- How many characters are left. -/
  remaining : Nat
  /-- How many places beyond the end of the text this one lies. -/
  beyond : Nat
  /-- The characters left are those of the rest. -/
  remaining_eq : remaining = rest.length
  /-- Nothing is left beyond the end. -/
  rest_eq_nil : 0 < beyond → rest = []

namespace Cursor

/-- Cursors are equal if they leave the same text and lie equally far beyond its end. -/
@[ext] theorem ext {c d : Cursor} (rest : c.rest = d.rest) (beyond : c.beyond = d.beyond) :
    c = d := by
  obtain ⟨_, _, _, rfl, _⟩ := c
  obtain ⟨_, _, _, rfl, _⟩ := d
  cases rest
  cases beyond
  rfl

instance : DecidableEq Cursor := fun c d =>
  decidable_of_iff (c.rest = d.rest ∧ c.beyond = d.beyond)
    ⟨fun ⟨rest, beyond⟩ => ext rest beyond, fun equal => equal ▸ ⟨rfl, rfl⟩⟩

/-- The place of an index in a text. -/
def ofIndex (text : List Char) (index : Nat) : Cursor where
  rest := text.drop index
  remaining := text.length - index
  beyond := index - text.length
  remaining_eq := by simp
  rest_eq_nil := by simp; omega

/-- The start of a text. -/
def start (text : List Char) : Cursor :=
  ofIndex text 0

/-- The index of a place in a text with `length` characters. -/
def index (c : Cursor) (length : Nat) : Nat :=
  length + c.beyond - c.remaining

/-- The place `count` characters further on, or the end of the text if that is nearer. -/
def advance (c : Cursor) (count : Nat) : Cursor where
  rest := c.rest.drop count
  remaining := c.remaining - count
  beyond := c.beyond
  remaining_eq := by rw [c.remaining_eq, List.length_drop]
  rest_eq_nil := fun beyond => by rw [c.rest_eq_nil beyond, List.drop_nil]

/-- The place after the gap here. -/
def skipGap (c : Cursor) : Cursor :=
  c.advance (gapLength c.rest)

/-- Whether a text stands here. Beyond the end not even the empty text does. -/
def startsWith (c : Cursor) (pattern : List Char) : Bool :=
  c.beyond == 0 && pattern.isPrefixOf c.rest

/-- The place and the length of its text, for people to read. -/
def describe (c : Cursor) (length : Nat) : String :=
  "State(" ++ toString (c.index length) ++ "/" ++ toString length ++ ")"

/-- Passing over a gap leaves no more than there was. -/
theorem remaining_skipGap_le (c : Cursor) : c.skipGap.remaining ≤ c.remaining :=
  Nat.sub_le _ _

@[simp] theorem rest_start (text : List Char) : (start text).rest = text := rfl

@[simp] theorem beyond_start (text : List Char) : (start text).beyond = 0 := by
  simp [start, ofIndex]

@[simp] theorem rest_advance (c : Cursor) (count : Nat) :
    (c.advance count).rest = c.rest.drop count := rfl

@[simp] theorem remaining_advance (c : Cursor) (count : Nat) :
    (c.advance count).remaining = c.remaining - count := rfl

@[simp] theorem beyond_advance (c : Cursor) (count : Nat) :
    (c.advance count).beyond = c.beyond := rfl

/-- A place of a text is found again by its index. -/
@[simp] theorem index_ofIndex (text : List Char) (index : Nat) :
    (ofIndex text index).index text.length = index := by
  simp only [ofIndex, Cursor.index]
  omega

/-- Advancing goes on by as many places as are left in the text. -/
theorem advance_ofIndex (text : List Char) (index count : Nat) :
    (ofIndex text index).advance count =
      ofIndex text (index + min count (text.length - index)) := by
  apply ext
  · simp only [rest_advance, ofIndex, List.drop_drop]
    by_cases short : count ≤ text.length - index
    · rw [Nat.min_eq_left short]
    · rw [Nat.min_eq_right (by omega), List.drop_eq_nil_of_le (by omega),
        List.drop_eq_nil_of_le (by omega)]
  · simp only [beyond_advance, ofIndex]
    omega

end Cursor

end Termbook
