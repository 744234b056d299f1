import Termbook.Reading.Token

/-! # Guards and choices

An alternative is a parser of optional values: no value means that something else may stand here.
Whether an alternative applies is decided by its guard before its body reads anything, so a fault in
a body is final. -/

namespace Termbook

namespace Parser

variable {α : Type}

/-- Read `body` if `opening` accepts what stands here. The opening is only a look ahead: the body
starts where it started, and a fault in it is a refusal. -/
def guard (opening : Parser Bool) (body : Parser α) : Parser (Option α) := fun c =>
  match opening c with
  | ⟨trace, .done true _⟩ => ((some <$> body) c).after trace
  | ⟨trace, .done false _⟩ => ⟨trace, .done none c⟩
  | ⟨trace, .failed _⟩ => ⟨trace, .done none c⟩
  | ⟨trace, .endless⟩ => ⟨trace, .endless⟩

/-- A guarded body that is noted under a label when it is accepted. -/
def guarded (label : String) (opening : Parser Bool) (body : Parser α) : Parser (Option α) :=
  guard opening do
    note (.accepted label)
    body

/-- Read by a parser, and go back to the start where it answers no value. -/
def maybe (parser : Parser (Option α)) : Parser (Option α) := fun c =>
  match parser c with
  | ⟨trace, .done none _⟩ => ⟨trace, .done none c⟩
  | reply => reply

/-- Read by the first alternative that answers a value. -/
def choice : List (Parser (Option α)) → Parser (Option α)
  | [] => pure none
  | alternative :: others => fun c =>
      match alternative c with
      | ⟨trace, .done none _⟩ => (choice others c).after trace
      | reply => reply

/-- Read by the first alternative that answers a value, and fail where none does. -/
def grammar (label : String) (alternatives : List (Parser (Option α))) : Parser α := fun c =>
  match choice alternatives c with
  | ⟨trace, .done (some value) next⟩ => ⟨trace, .done value next⟩
  | ⟨trace, .done none _⟩ => ⟨trace, .failed ⟨label, c.skipGap⟩⟩
  | ⟨trace, .failed fault⟩ => ⟨trace, .failed fault⟩
  | ⟨trace, .endless⟩ => ⟨trace, .endless⟩

end Parser

end Termbook
