import Mathlib
import Termbook.Book.Reader

/-! # Reading goes forward

Wherever a parser stops or fails, the place is onward from where it started: some characters
further on, never before the start and never newly beyond the end of the text. This holds of every
token, is kept by every way to put parsers together, and so holds of the readers of terms, rules and
books. -/

namespace Termbook

variable {α β ι : Type}

namespace Cursor

/-- A place is onward from another one if reading some characters leads there. -/
def Onward (c d : Cursor) : Prop :=
  ∃ count, d = c.advance count

/-- Advancing twice is advancing once. -/
@[simp] theorem advance_advance (c : Cursor) (first second : Nat) :
    (c.advance first).advance second = c.advance (first + second) := by
  apply ext
  · simp only [rest_advance, List.drop_drop]
  · simp only [beyond_advance]

/-- Advancing by nothing stays. -/
@[simp] theorem advance_zero (c : Cursor) : c.advance 0 = c := by
  apply ext
  · simp only [rest_advance, List.drop_zero]
  · simp only [beyond_advance]

/-- Every place is onward from itself. -/
theorem Onward.refl (c : Cursor) : c.Onward c :=
  ⟨0, c.advance_zero.symm⟩

/-- Advancing leads onward. -/
theorem onward_advance (c : Cursor) (count : Nat) : c.Onward (c.advance count) :=
  ⟨count, rfl⟩

/-- Passing over a gap leads onward. -/
theorem onward_skipGap (c : Cursor) : c.Onward c.skipGap :=
  c.onward_advance _

/-- What is onward from a place onward is onward. -/
theorem Onward.trans {c d e : Cursor} (first : c.Onward d) (second : d.Onward e) :
    c.Onward e := by
  obtain ⟨count, rfl⟩ := first
  obtain ⟨more, rfl⟩ := second
  exact ⟨count + more, c.advance_advance count more⟩

/-- Onward there is no more left. -/
theorem Onward.remaining_le {c d : Cursor} (onward : c.Onward d) :
    d.remaining ≤ c.remaining := by
  obtain ⟨count, rfl⟩ := onward
  rw [remaining_advance]
  exact Nat.sub_le _ _

/-- Places onward lie equally far beyond the end. -/
theorem Onward.beyond_eq {c d : Cursor} (onward : c.Onward d) : d.beyond = c.beyond := by
  obtain ⟨count, rfl⟩ := onward
  rfl

end Cursor

/-- Whether the place of an outcome is onward from `c`. -/
def Outcome.Onward (c : Cursor) : Outcome α → Prop
  | .done _ next => c.Onward next
  | .failed fault => c.Onward fault.place
  | .endless => True

/-- Outcomes onward from a place onward are onward. -/
theorem Outcome.Onward.trans {c d : Cursor} {outcome : Outcome α} (first : c.Onward d)
    (second : outcome.Onward d) : outcome.Onward c := by
  cases outcome with
  | done value next => exact Cursor.Onward.trans first second
  | failed fault => exact Cursor.Onward.trans first second
  | endless => trivial

namespace Parser

/-- A parser goes forward if its outcome is always onward from its start. -/
def Forward (parser : Parser α) : Prop :=
  ∀ c, (parser c).outcome.Onward c

/-- A parser that goes forward stops onward. -/
theorem Forward.onward {parser : Parser α} (forward : Forward parser) {c next : Cursor} {value : α}
    (done : (parser c).outcome = .done value next) : c.Onward next := by
  have := forward c
  rwa [done] at this

/-! ## Tokens -/

theorem forward_here : Forward here := fun c => .refl c

theorem forward_peek : Forward peek := fun c => .refl c

theorem forward_note (event : Cursor → Event) : Forward (note event) := fun c => .refl c

theorem forward_fail (expected : String) : Forward (fail (α := α) expected) :=
  fun c => c.onward_skipGap

theorem forward_advance : Forward advance := fun c => c.onward_advance 1

theorem forward_skipBlanks : Forward skipBlanks := fun c => c.onward_advance _

theorem forward_skipComment : Forward skipComment := fun c => c.onward_advance _

theorem forward_skip : Forward skip := fun c => c.onward_skipGap

theorem forward_nextChar : Forward nextChar :=
  fun c => c.onward_skipGap.trans (c.skipGap.onward_advance 1)

theorem forward_atEnd : Forward atEnd := fun c => c.onward_skipGap

theorem forward_exactly (pattern : List Char) : Forward (exactly pattern) := by
  intro c
  rw [exactly]
  split
  · exact c.onward_advance _
  · exact .refl c

theorem forward_token (pattern : List Char) : Forward (token pattern) := by
  intro c
  simp only [token]
  split
  · exact c.onward_skipGap.trans (c.skipGap.onward_advance _)
  · exact .refl c

theorem forward_require (pattern : List Char) : Forward (require pattern) := by
  intro c
  simp only [require]
  split
  · exact c.onward_skipGap.trans (c.skipGap.onward_advance _)
  · exact c.onward_skipGap

theorem forward_name : Forward name :=
  fun c => c.onward_skipGap.trans (c.skipGap.onward_advance _)

theorem forward_requireName : Forward requireName := by
  intro c
  simp only [requireName]
  split
  · exact c.onward_skipGap
  · exact c.onward_skipGap.trans (c.skipGap.onward_advance _)

/-! ## Combinators -/

theorem forward_pure (value : α) : Forward (pure value : Parser α) := fun c => .refl c

/-- A sequence goes forward from a place if its first part does and if its second part, wherever
the first one stops, is onward from that same place. -/
theorem onward_bind {first : Parser α} {next : α → Parser β} {c : Cursor}
    (firstOnward : (first c).outcome.Onward c)
    (nextOnward : ∀ value d, (first c).outcome = .done value d →
      (next value d).outcome.Onward c) :
    ((first >>= next) c).outcome.Onward c := by
  rw [bind_apply]
  revert firstOnward nextOnward
  rcases first c with ⟨trace, _ | _ | _⟩
  · exact fun _ nextOnward => nextOnward _ _ rfl
  · exact fun firstOnward _ => firstOnward
  · exact fun _ _ => trivial

theorem forward_bind {first : Parser α} {next : α → Parser β} (firstForward : Forward first)
    (nextForward : ∀ value, Forward (next value)) : Forward (first >>= next) :=
  fun c => onward_bind (firstForward c) fun value d done =>
    (nextForward value d).trans (firstForward.onward done)

theorem forward_map {parser : Parser α} (change : α → β) (forward : Forward parser) :
    Forward (change <$> parser) := by
  intro c
  have := forward c
  rw [map_apply]
  revert this
  rcases parser c with ⟨trace, _ | _ | _⟩ <;> exact id

theorem forward_charTest (test : Char → Bool) : Forward (charTest test) :=
  forward_map test forward_nextChar

theorem forward_lookAhead {parser : Parser α} (forward : Forward parser) :
    Forward (lookAhead parser) := by
  intro c
  have := forward c
  rw [lookAhead]
  revert this
  rcases parser c with ⟨trace, _ | _ | _⟩
  · exact fun _ => .refl c
  · exact id
  · exact id

/-- A guarded body goes forward whatever its opening does, since it starts where the opening
started. -/
theorem forward_guard (opening : Parser Bool) {body : Parser α} (forward : Forward body) :
    Forward (guard opening body) := by
  intro c
  have := forward_map some forward c
  rw [guard]
  revert this
  rcases opening c with ⟨trace, ⟨accepted, _⟩ | _ | _⟩
  · cases accepted
    · exact fun _ => .refl c
    · exact id
  · exact fun _ => .refl c
  · exact fun _ => trivial

theorem forward_guarded (label : String) (opening : Parser Bool) {body : Parser α}
    (forward : Forward body) : Forward (guarded label opening body) :=
  forward_guard opening (forward_bind (forward_note _) fun _ => forward)

theorem forward_maybe {parser : Parser (Option α)} (forward : Forward parser) :
    Forward (maybe parser) := by
  intro c
  have := forward c
  rw [maybe]
  revert this
  rcases parser c with ⟨trace, ⟨_ | _, _⟩ | _ | _⟩
  · exact fun _ => .refl c
  · exact id
  · exact id
  · exact id

theorem forward_choice {alternatives : List (Parser (Option α))}
    (forward : ∀ alternative ∈ alternatives, Forward alternative) :
    Forward (choice alternatives) := by
  induction alternatives with
  | nil => exact forward_pure none
  | cons alternative others ih =>
      intro c
      have here := forward alternative List.mem_cons_self c
      have there := ih (fun other member => forward other (List.mem_cons_of_mem _ member)) c
      simp only [choice]
      revert here there
      rcases alternative c with ⟨trace, ⟨_ | _, _⟩ | _ | _⟩
      · exact fun _ there => there
      · exact fun here _ => here
      · exact fun here _ => here
      · exact fun here _ => here

theorem forward_grammar (label : String) {alternatives : List (Parser (Option α))}
    (forward : ∀ alternative ∈ alternatives, Forward alternative) :
    Forward (grammar label alternatives) := by
  intro c
  have := forward_choice forward c
  rw [grammar]
  revert this
  rcases choice alternatives c with ⟨trace, ⟨_ | _, _⟩ | _ | _⟩
  · exact fun _ => c.onward_skipGap
  · exact id
  · exact id
  · exact id

/-- A recursive parser goes forward if one step does, given that the parser itself does. -/
theorem forward_fix {step : (ι → Parser α) → ι → Parser α}
    (forward : ∀ self, (∀ next, Forward (self next)) → ∀ parameter, Forward (step self parameter))
    (parameter : ι) : Forward (fix step parameter) := by
  intro c
  -- the parser is entered again only where less is left
  induction size : c.remaining using Nat.strongRecOn generalizing c parameter with
  | ind size ih =>
      rw [fix_apply]
      refine forward _ (fun next d => ?_) parameter c
      split
      · next less => exact ih _ (size ▸ less) next d rfl
      · trivial

theorem forward_closes {closing : Closing} (forward : Forward closing.parser) :
    Forward (closes closing) := by
  intro c
  have := forward c
  rw [closes]
  revert this
  rcases closing.parser c with ⟨trace, ⟨_ | _, _⟩ | _ | _⟩
  · exact fun _ => .refl c
  · exact id
  · exact id
  · exact id

theorem forward_manyUntilFrom {closing : Closing} {element : Nat → Parser α}
    (closingForward : Forward closing.parser) (elementForward : ∀ number, Forward (element number))
    (number : Nat) : Forward (manyUntilFrom closing element number) := by
  refine forward_fix (fun again againForward number => ?_) number
  -- an element and then the others, which the loop reads whether or not the text has ended
  have more : Forward (do
      let value ← element number
      return value :: (← again (number + 1))) :=
    forward_bind (elementForward number) fun _ =>
      forward_bind (againForward _) fun _ => forward_pure _
  refine forward_bind (forward_closes closingForward) fun closed => ?_
  split
  · exact forward_pure _
  · refine forward_bind (forward_lookAhead forward_atEnd) fun ended => ?_
    dsimp only
    split
    · exact forward_bind (forward_fail _) fun _ => more
    · exact more

theorem forward_manyUntil {closing : Closing} {element : Parser α}
    (closingForward : Forward closing.parser) (elementForward : Forward element) :
    Forward (manyUntil closing element) :=
  forward_manyUntilFrom closingForward (fun _ => elementForward) 0

theorem forward_sequence (opening closing : List Char) {element : Parser α}
    (forward : Forward element) : Forward (sequence opening closing element) :=
  forward_bind (forward_require opening) fun _ => forward_manyUntil (forward_token closing) forward

end Parser

/-! ## Terms -/

namespace Form

open Termbook.Parser

theorem forward_lamHead : Forward lamHead := by
  refine forward_bind (forward_token _) fun found => ?_
  split
  · exact forward_pure true
  · exact forward_token _

/-- Every opening goes forward. -/
theorem forward_opening (form : Form) : Forward form.opening := by
  cases form with
  | letIn | dup | app => exact forward_token _
  | lam => exact forward_lamHead
  | ctr => exact forward_bind (forward_token _) fun _ => forward_charTest _
  | op2 =>
      exact forward_bind (forward_token _) fun _ =>
        forward_bind forward_nextChar fun _ => forward_pure _
  | num | chr | str | lst | var => exact forward_charTest _

theorem forward_operParser (oper : Oper) : Forward (operParser oper) := by
  refine forward_bind (forward_token _) fun found => ?_
  split
  · exact forward_pure _
  · exact forward_pure _

theorem forward_operReader : Forward operReader := by
  refine forward_grammar _ fun alternative member => ?_
  obtain ⟨oper, -, rfl⟩ := List.mem_map.mp member
  exact forward_operParser oper

/-- The fault of a numeral lies before what has been read, but not before the start. -/
theorem forward_numBody : Forward numBody := by
  intro c
  refine onward_bind (forward_here c) fun start d atStart => ?_
  cases atStart
  refine onward_bind (forward_requireName c) fun numeral d named => ?_
  cases readNumeral? numeral.toList with
  | some value => exact forward_requireName.onward named
  | none =>
      -- the fault is placed where the numeral starts
      exact c.onward_skipGap

theorem forward_chrBody : Forward chrBody := by
  refine forward_bind (forward_require _) fun _ => forward_bind forward_peek fun found => ?_
  split
  · exact fun c => .refl c
  · refine forward_bind forward_advance fun _ => forward_bind (forward_exactly _) fun closed => ?_
    dsimp only
    split
    · exact fun c => .refl c
    · exact forward_pure _

theorem forward_strBody : Forward strBody := by
  intro c
  simp only [strBody]
  split
  · exact c.onward_skipGap
  · exact c.onward_skipGap.trans (c.skipGap.onward_advance _)

variable {term : Parser Term}

theorem forward_lstItem (forward : Forward term) : Forward (lstItem term) :=
  forward_bind forward fun _ => forward_bind (forward_token _) fun _ => forward_pure _

/-- Every body goes forward if the parser of subterms does. -/
theorem forward_body (forward : Forward term) (form : Form) : Forward (form.body term) := by
  cases form with
  | letIn =>
      exact forward_bind (forward_require _) fun _ => forward_bind forward_requireName fun _ =>
        forward_bind (forward_require _) fun _ => forward_bind forward fun _ =>
          forward_bind (forward_require _) fun _ => forward_bind forward fun _ => forward_pure _
  | dup =>
      exact forward_bind (forward_require _) fun _ => forward_bind forward_requireName fun _ =>
        forward_bind forward_requireName fun _ => forward_bind (forward_require _) fun _ =>
          forward_bind forward fun _ => forward_bind (forward_require _) fun _ =>
            forward_bind forward fun _ => forward_pure _
  | lam =>
      refine forward_bind forward_lamHead fun found => ?_
      have named : Forward (do
          let name ← requireName
          let body ← term
          return Term.lam name body) :=
        forward_bind forward_requireName fun _ => forward_bind forward fun _ => forward_pure _
      dsimp only
      split
      · exact forward_bind (forward_fail _) fun _ => named
      · exact named
  | ctr =>
      refine forward_bind (forward_token _) fun opened =>
        forward_bind forward_requireName fun name => ?_
      split
      · exact forward_bind (forward_manyUntil (forward_token _) forward) fun _ => forward_pure _
      · exact forward_pure _
  | op2 =>
      exact forward_bind (forward_require _) fun _ => forward_bind forward_operReader fun _ =>
        forward_bind forward fun _ => forward_bind forward fun _ =>
          forward_bind (forward_require _) fun _ => forward_pure _
  | app => exact forward_map _ (forward_sequence _ _ forward)
  | num => exact forward_numBody
  | chr => exact forward_chrBody
  | str => exact forward_strBody
  | lst => exact forward_map _ (forward_sequence _ _ (forward_lstItem forward))
  | var => exact forward_map _ forward_requireName

/-- The alternatives for a term go forward if the parser of subterms does. -/
theorem forward_of_mem_parsers (forward : Forward term) :
    ∀ alternative ∈ parsers term, Forward alternative := by
  intro alternative member
  obtain ⟨form, -, rfl⟩ := List.mem_map.mp member
  exact forward_guarded _ _ (forward_body forward form)

end Form

namespace Parser

/-- The parser of terms goes forward. -/
theorem forward_term : Forward term :=
  forward_fix
    (fun _ forward _ => forward_grammar "Term" (Form.forward_of_mem_parsers (forward ()))) ()

/-! ## Rules and books -/

/-- The parser of rules goes forward. -/
theorem forward_rule : Forward rule := by
  refine forward_maybe (forward_bind ?_ fun lhs => ?_)
  · exact forward_choice (Form.forward_of_mem_parsers forward_term)
  · cases lhs with
    | none => exact forward_pure none
    | some lhs =>
        refine forward_bind (forward_token _) fun found => ?_
        cases found with
        | true => exact forward_bind forward_term fun _ => forward_pure _
        | false => exact forward_pure none

/-- A missing definition is expected after the gap, which is onward. -/
theorem forward_numberedRule (number : Nat) : Forward (numberedRule number) := by
  refine fun c => onward_bind (forward_skip c) fun moved d atGap => ?_
  refine Outcome.Onward.trans (forward_skip.onward atGap) ?_
  refine onward_bind (forward_here d) fun place e atPlace => ?_
  cases atPlace
  refine onward_bind (forward_rule d) fun read e done => ?_
  cases read with
  | none => exact .refl d
  | some read => exact forward_rule.onward done

/-- The parser of books goes forward. -/
theorem forward_book : Forward book :=
  forward_map _ (forward_manyUntilFrom forward_atEnd forward_numberedRule 0)

end Parser

end Termbook
