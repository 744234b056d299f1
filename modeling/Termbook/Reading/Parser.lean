import Termbook.Reading.Reply

/-! # Parsers

A parser answers a cursor. Parsers are put together by `do` blocks, in which a fault ends the block
and events add up, and by recursion through `Parser.fix`. -/

namespace Termbook

/-- A parser of values of type `α`. -/
def Parser (α : Type) := Cursor → Reply α

namespace Parser

variable {α β ι : Type}

/-- Answer a value without reading. -/
@[inline] protected def pure (value : α) : Parser α := fun c => .done value c

/-- Go on with the value of a first parser where that parser stopped. -/
@[inline] protected def bind (first : Parser α) (next : α → Parser β) : Parser β := fun c =>
  match first c with
  | ⟨trace, .done value d⟩ => (next value d).after trace
  | ⟨trace, .failed fault⟩ => ⟨trace, .failed fault⟩
  | ⟨trace, .endless⟩ => ⟨trace, .endless⟩

/-- Change the value of a parser. -/
@[inline] protected def map (change : α → β) (parser : Parser α) : Parser β := fun c =>
  match parser c with
  | ⟨trace, .done value d⟩ => ⟨trace, .done (change value) d⟩
  | ⟨trace, .failed fault⟩ => ⟨trace, .failed fault⟩
  | ⟨trace, .endless⟩ => ⟨trace, .endless⟩

instance : Monad Parser where
  pure := Parser.pure
  bind := Parser.bind
  map := Parser.map

@[simp] theorem pure_apply (value : α) (c : Cursor) :
    (pure value : Parser α) c = .done value c := rfl

/-- A sequence goes on from where its first part stopped, and ends where that part failed. -/
theorem bind_apply (first : Parser α) (next : α → Parser β) (c : Cursor) :
    (first >>= next) c =
      match first c with
      | ⟨trace, .done value d⟩ => (next value d).after trace
      | ⟨trace, .failed fault⟩ => ⟨trace, .failed fault⟩
      | ⟨trace, .endless⟩ => ⟨trace, .endless⟩ := rfl

/-- Changing the value changes nothing else. -/
theorem map_apply (change : α → β) (parser : Parser α) (c : Cursor) :
    (change <$> parser) c =
      match parser c with
      | ⟨trace, .done value d⟩ => ⟨trace, .done (change value) d⟩
      | ⟨trace, .failed fault⟩ => ⟨trace, .failed fault⟩
      | ⟨trace, .endless⟩ => ⟨trace, .endless⟩ := rfl

/-- Fail because something was expected at a place. -/
def failAt (expected : String) (place : Cursor) : Parser α := fun _ => .failed expected place

/-- Fail because something was expected after the gap here. -/
def fail (expected : String) : Parser α := fun c => .failed expected c.skipGap

/-- The cursor. -/
def here : Parser Cursor := fun c => .done c c

/-- Note an event of this place. -/
def note (event : Cursor → Event) : Parser Unit := fun c => ⟨[event c], .done () c⟩

/-- Read by a parser, but go on from where it started. -/
def lookAhead (parser : Parser α) : Parser α := fun c =>
  match parser c with
  | ⟨trace, .done value _⟩ => ⟨trace, .done value c⟩
  | reply => reply

/-- The parser that `step` describes in terms of itself and of a parameter. A parser that calls
itself before it has read anything would never end. -/
def fix (step : (ι → Parser α) → ι → Parser α) (parameter : ι) (c : Cursor) : Reply α :=
  step (fun next d => if d.remaining < c.remaining then fix step next d else .endless) parameter c
termination_by c.remaining

/-- A recursive parser is one step, which goes on with the parser itself wherever less is left. -/
theorem fix_apply (step : (ι → Parser α) → ι → Parser α) (parameter : ι) (c : Cursor) :
    fix step parameter c =
      step (fun next d => if d.remaining < c.remaining then fix step next d else .endless)
        parameter c := by
  rw [fix]

end Parser

end Termbook
