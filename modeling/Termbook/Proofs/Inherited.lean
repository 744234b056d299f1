import Termbook.Proofs.Books

/-! # What parsers inherit from their parts

That a reply ends, or that everything noted in it is of one kind, shows in each part of a sequence
by itself. Such a property is proved once for the ways to put parsers together, and then holds of
the readers of terms, rules and books as soon as it holds of the events that they note. The bodies
of terms are gone through here once for all properties of parsers that are closed under what bodies
do. -/

namespace Termbook

open Termbook.Parser

variable {α β : Type}

/-- A property of replies that sequences inherit: it looks at the events and at whether the reply
ends, but neither at the value nor at the place. -/
structure Inherited (holds : ∀ {α : Type}, Reply α → Prop) : Prop where
  /-- It holds of a reply that ends and notes nothing. -/
  quiet : ∀ {α : Type} {reply : Reply α},
    reply.trace = [] → reply.outcome ≠ .endless → holds reply
  /-- It is kept by a reply that goes on where another one was done. -/
  after : ∀ {α β : Type} {trace : List Event} {value : α} {next : Cursor} {reply : Reply β},
    holds ⟨trace, .done value next⟩ → holds reply → holds (reply.after trace)
  /-- It is kept if the reply ends in another way. -/
  other : ∀ {α β : Type} {trace : List Event} {outcome : Outcome α} {outcome' : Outcome β},
    holds ⟨trace, outcome⟩ → (outcome' = .endless → outcome = .endless) → holds ⟨trace, outcome'⟩

/-- A parser all of whose replies have a property. -/
def Parser.Always (holds : Reply α → Prop) (parser : Parser α) : Prop :=
  ∀ c, holds (parser c)

/-- A parser where less is left than `limit`, and a fault elsewhere. -/
def Parser.shortOf (limit : Nat) (parser : Parser α) : Parser α := fun c =>
  if c.remaining < limit then parser c else .failed "" c

theorem Parser.takesText_shortOf (limit : Nat) {parser : Parser α} (takes : TakesText parser) :
    TakesText (shortOf limit parser) := by
  intro c value next done
  rw [shortOf] at done
  split at done
  · exact takes c value next done
  · contradiction

/-- What is known of terms where less is left carries over to the body that reads the term here. So
it holds of all terms, if it also holds of the faults where no term stands, and of those with which
the parser of subterms is cut short. -/
theorem Parser.term_induction (holds : Cursor → Reply Term → Prop)
    (cut : ∀ c, holds c (.failed "" c))
    (refused : ∀ c, Form.at? (dropGap c.rest) = none → holds c (.failed "Term" c.skipGap))
    (accepted : ∀ form c, Form.at? (dropGap c.rest) = some form →
      (∀ d, holds d (shortOf c.remaining term d)) →
        holds c ((form.body (shortOf c.remaining term) c).after [.accepted form.label c]))
    (c : Cursor) : holds c (term c) := by
  induction size : c.remaining using Nat.strongRecOn generalizing c with
  | ind size ih =>
      rw [term_eq_body]
      split
      · next form here =>
          -- the body asks for subterms only where less is left
          have same (d : Cursor) (less : d.remaining < c.remaining) :
              term d = shortOf c.remaining term d := (if_pos less).symm
          rw [form.body_congr forward_term same]
          refine accepted form c here fun d => ?_
          rw [shortOf]
          split
          · next less => exact ih _ (size ▸ less) d rfl
          · exact cut d
      · next here => exact refused c here

/-! ## Bodies -/

/-- A property of parsers that holds of the tokens and of the bodies without subterms, and that is
closed under the ways in which the other bodies put parsers together. Where a fault matters, it is
one that expects neither a term nor a definition, since no body does so by itself. -/
structure BodyClosed (holds : ∀ {α : Type}, Parser α → Prop) : Prop where
  /-- Answering without reading. -/
  pure : ∀ {α : Type} (value : α), holds (Pure.pure value : Parser α)
  /-- Sequences. -/
  bind : ∀ {α β : Type} {first : Parser α} {next : α → Parser β},
    holds first → (∀ value, holds (next value)) → holds (first >>= next)
  /-- Changed values. -/
  map : ∀ {α β : Type} {parser : Parser α} (change : α → β),
    holds parser → holds (change <$> parser)
  /-- Repetitions of what takes text. -/
  manyUntil : ∀ {α : Type} {pattern : List Char} {element : Parser α},
    String.ofList pattern ∉ ["Term", "definition"] → TakesText element → holds element →
      holds (Parser.manyUntil (.token pattern) element)
  /-- Faults after the gap. -/
  fail : ∀ {α : Type} {expected : String},
    expected ∉ ["Term", "definition"] → holds (Parser.fail expected : Parser α)
  /-- Required texts. -/
  require : ∀ {pattern : List Char},
    String.ofList pattern ∉ ["Term", "definition"] → holds (Parser.require pattern)
  /-- Texts that may be missing. -/
  token : ∀ pattern : List Char, holds (Parser.token pattern)
  /-- Names. -/
  requireName : holds Parser.requireName
  /-- Operators. -/
  operReader : holds Form.operReader
  /-- Numbers. -/
  numBody : holds Form.numBody
  /-- Characters. -/
  chrBody : holds Form.chrBody
  /-- String literals. -/
  strBody : holds Form.strBody

namespace BodyClosed

variable {holds : ∀ {α : Type}, Parser α → Prop} (closed : BodyClosed holds)
include closed

theorem lamHead : holds Form.lamHead := by
  refine closed.bind (closed.token _) fun found => ?_
  split
  · exact closed.pure true
  · exact closed.token _

theorem lstItem {term : Parser Term} (inner : holds term) : holds (Form.lstItem term) :=
  closed.bind inner fun _ => closed.bind (closed.token _) fun _ => closed.pure _

theorem sequence {opening closing : List Char}
    (opens : String.ofList opening ∉ ["Term", "definition"])
    (closes : String.ofList closing ∉ ["Term", "definition"]) {element : Parser α}
    (takes : TakesText element) (inner : holds element) :
    holds (sequence opening closing element) :=
  closed.bind (closed.require opens) fun _ => closed.manyUntil closes takes inner

/-- A body has the property if the parser of subterms has it, and takes text. -/
theorem body {term : Parser Term} (takes : TakesText term) (inner : holds term) (form : Form) :
    holds (form.body term) := by
  cases form with
  | letIn =>
      exact closed.bind (closed.require (by decide)) fun _ => closed.bind closed.requireName
        fun _ => closed.bind (closed.require (by decide)) fun _ => closed.bind inner fun _ =>
          closed.bind (closed.require (by decide)) fun _ => closed.bind inner fun _ =>
            closed.pure _
  | dup =>
      exact closed.bind (closed.require (by decide)) fun _ => closed.bind closed.requireName
        fun _ => closed.bind closed.requireName fun _ => closed.bind (closed.require (by decide))
          fun _ => closed.bind inner fun _ => closed.bind (closed.require (by decide)) fun _ =>
            closed.bind inner fun _ => closed.pure _
  | lam =>
      refine closed.bind closed.lamHead fun found => ?_
      have named : holds (do
          let name ← Parser.requireName
          let body ← term
          return Term.lam name body) :=
        closed.bind closed.requireName fun _ => closed.bind inner fun _ => closed.pure _
      dsimp only
      split
      · exact closed.bind (closed.fail (by decide)) fun _ => named
      · exact named
  | ctr =>
      refine closed.bind (closed.token _) fun opened =>
        closed.bind closed.requireName fun name => ?_
      split
      · exact closed.bind (closed.manyUntil (by decide) takes inner) fun _ => closed.pure _
      · exact closed.pure _
  | op2 =>
      exact closed.bind (closed.require (by decide)) fun _ => closed.bind closed.operReader
        fun _ => closed.bind inner fun _ => closed.bind inner fun _ =>
          closed.bind (closed.require (by decide)) fun _ => closed.pure _
  | app => exact closed.map _ (closed.sequence (by decide) (by decide) takes inner)
  | num => exact closed.numBody
  | chr => exact closed.chrBody
  | str => exact closed.strBody
  | lst =>
      have items := Form.takesText_lstItem takes
      exact closed.map _ (closed.sequence (by decide) (by decide) items (closed.lstItem inner))
  | var => exact closed.map _ closed.requireName

end BodyClosed

namespace Inherited

variable {holds : ∀ {α : Type}, Reply α → Prop} (inherited : Inherited holds)
include inherited

/-! ## Replies -/

theorem done (value : α) (next : Cursor) : holds (Reply.done value next) :=
  inherited.quiet rfl nofun

theorem failed (expected : String) (place : Cursor) :
    holds (Reply.failed expected place : Reply α) :=
  inherited.quiet rfl nofun

/-- The property is kept if the reply is done instead. -/
theorem doneInstead {trace : List Event} {outcome : Outcome α} {value : β} {next : Cursor}
    (head : holds ⟨trace, outcome⟩) : holds (⟨trace, .done value next⟩ : Reply β) :=
  inherited.other head nofun

/-- The property is kept if the reply fails instead. -/
theorem failedInstead {trace : List Event} {outcome : Outcome α} {fault : Fault}
    (head : holds ⟨trace, outcome⟩) : holds (⟨trace, .failed fault⟩ : Reply β) :=
  inherited.other head nofun

/-- The property does not look at what an endless reply would have answered. -/
theorem endlessStill {trace : List Event} (head : holds (⟨trace, .endless⟩ : Reply α)) :
    holds (⟨trace, .endless⟩ : Reply β) :=
  inherited.other head fun _ => rfl

/-! ## Tokens -/

theorem pure (value : α) : Always holds (pure value : Parser α) :=
  fun c => inherited.done value c

theorem here : Always holds here :=
  fun c => inherited.done c c

theorem peek : Always holds peek :=
  fun _ => inherited.done _ _

theorem advance : Always holds advance :=
  fun _ => inherited.done _ _

theorem skip : Always holds skip :=
  fun _ => inherited.done _ _

theorem atEnd : Always holds atEnd :=
  fun _ => inherited.done _ _

theorem fail (expected : String) : Always holds (fail expected : Parser α) :=
  fun c => inherited.failed expected c.skipGap

theorem failAt (expected : String) (place : Cursor) :
    Always holds (failAt expected place : Parser α) :=
  fun _ => inherited.failed expected place

theorem exactly (pattern : List Char) : Always holds (exactly pattern) := by
  intro c
  rw [Parser.exactly]
  split
  · exact inherited.done true _
  · exact inherited.done false _

theorem token (pattern : List Char) : Always holds (token pattern) := by
  intro c
  simp only [Parser.token]
  split
  · exact inherited.done true _
  · exact inherited.done false _

theorem require (pattern : List Char) : Always holds (require pattern) := by
  intro c
  simp only [Parser.require]
  split
  · exact inherited.done () _
  · exact inherited.failed _ _

theorem requireName : Always holds requireName := by
  intro c
  simp only [Parser.requireName]
  split
  · exact inherited.failed _ _
  · exact inherited.done _ _

/-! ## Combinators -/

/-- A sequence has the property at a place if its first part has it there and its second part
wherever the first one stops. -/
theorem bind_at {first : Parser α} {next : α → Parser β} {c : Cursor} (head : holds (first c))
    (tail : ∀ value d, (first c).outcome = .done value d → holds (next value d)) :
    holds ((first >>= next) c) := by
  rw [bind_apply]
  revert head tail
  rcases first c with ⟨trace, ⟨value, d⟩ | fault | _⟩
  · exact fun head tail => inherited.after head (tail value d rfl)
  · exact fun head _ => inherited.failedInstead head
  · exact fun head _ => inherited.endlessStill head

theorem bind {first : Parser α} {next : α → Parser β} (head : Always holds first)
    (tail : ∀ value, Always holds (next value)) : Always holds (first >>= next) :=
  fun c => inherited.bind_at (head c) fun value d _ => tail value d

theorem map {parser : Parser α} (change : α → β) (always : Always holds parser) :
    Always holds (change <$> parser) := by
  intro c
  have := always c
  rw [map_apply]
  revert this
  rcases parser c with ⟨trace, _ | _ | _⟩
  · exact fun head => inherited.doneInstead head
  · exact fun head => inherited.failedInstead head
  · exact fun head => inherited.endlessStill head

theorem maybe {parser : Parser (Option α)} (always : Always holds parser) :
    Always holds (maybe parser) := by
  intro c
  have := always c
  rw [Parser.maybe]
  revert this
  rcases parser c with ⟨trace, ⟨_ | _, _⟩ | _ | _⟩
  · exact fun head => inherited.doneInstead head
  · exact id
  · exact id
  · exact id

theorem choice {alternatives : List (Parser (Option α))}
    (always : ∀ alternative ∈ alternatives, Always holds alternative) :
    Always holds (choice alternatives) := by
  induction alternatives with
  | nil => exact inherited.pure none
  | cons alternative others ih =>
      intro c
      have here := always alternative List.mem_cons_self c
      have there := ih (fun other member => always other (List.mem_cons_of_mem _ member)) c
      simp only [Parser.choice]
      revert here there
      rcases alternative c with ⟨trace, ⟨_ | _, _⟩ | _ | _⟩
      · exact fun here there => inherited.after here there
      · exact fun here _ => here
      · exact fun here _ => here
      · exact fun here _ => here

theorem grammar (label : String) {alternatives : List (Parser (Option α))}
    (always : ∀ alternative ∈ alternatives, Always holds alternative) :
    Always holds (grammar label alternatives) := by
  intro c
  have := inherited.choice always c
  rw [Parser.grammar]
  revert this
  rcases Parser.choice alternatives c with ⟨trace, ⟨_ | _, _⟩ | _ | _⟩
  · exact fun head => inherited.failedInstead head
  · exact fun head => inherited.doneInstead head
  · exact fun head => inherited.failedInstead head
  · exact fun head => inherited.endlessStill head

theorem closes {closing : Closing} (always : Always holds closing.parser) :
    Always holds (closes closing) := by
  intro c
  have := always c
  rw [Parser.closes]
  revert this
  rcases closing.parser c with ⟨trace, ⟨_ | _, _⟩ | _ | _⟩
  · exact fun head => inherited.doneInstead head
  · exact id
  · exact id
  · exact id

/-- A repetition inherits the property from its closing and its elements if these take text, since
it then goes on only where less is left. -/
theorem manyUntilFrom {closing : Closing} {element : Nat → Parser α}
    (closingAlways : Always holds closing.parser) (takes : ∀ number, TakesText (element number))
    (elementAlways : ∀ number, Always holds (element number)) (number : Nat) :
    Always holds (manyUntilFrom closing element number) := by
  intro c
  induction size : c.remaining using Nat.strongRecOn generalizing c number with
  | ind size ih =>
      rw [manyUntilFrom_apply takes, Parser.round]
      refine inherited.bind_at (inherited.closes closingAlways c) fun closed d open_ => ?_
      cases closed with
      | true => exact inherited.pure [] d
      | false =>
          cases eq_of_outcome_closes open_
          simp only [Bool.false_eq_true, if_false, readOn]
          split
          -- the text has ended before the closing
          · exact inherited.failed _ _
          · refine inherited.bind_at (elementAlways number c) fun value d done => ?_
            have less := takes number c value d done
            exact inherited.bind_at (ih _ (size ▸ less) _ _ rfl) fun _ e _ => inherited.pure _ e

theorem manyUntil {pattern : List Char} {element : Parser α} (takes : TakesText element)
    (always : Always holds element) : Always holds (manyUntil (.token pattern) element) :=
  inherited.manyUntilFrom (inherited.token pattern) (fun _ => takes) (fun _ => always) 0

/-! ## Terms -/

theorem operReader : Always holds Form.operReader := by
  refine inherited.grammar _ fun alternative member => ?_
  obtain ⟨oper, -, rfl⟩ := List.mem_map.mp member
  refine inherited.bind (inherited.token _) fun found => ?_
  split
  · exact inherited.pure _
  · exact inherited.pure _

theorem numBody : Always holds Form.numBody := by
  refine inherited.bind inherited.here fun start =>
    inherited.bind inherited.requireName fun numeral => ?_
  split
  · exact inherited.pure _
  · exact inherited.failAt _ _

theorem chrBody : Always holds Form.chrBody := by
  refine inherited.bind (inherited.require _) fun _ => inherited.bind inherited.peek
    fun found => ?_
  split
  · exact inherited.bind inherited.here fun place => inherited.failAt _ place
  · refine inherited.bind inherited.advance fun _ =>
      inherited.bind (inherited.exactly _) fun closed => ?_
    dsimp only
    split
    · exact inherited.bind inherited.here fun place =>
        inherited.bind (inherited.failAt _ place) fun _ => inherited.pure _
    · exact inherited.pure _

theorem strBody : Always holds Form.strBody := by
  intro c
  simp only [Form.strBody]
  split
  · exact inherited.failed _ _
  · exact inherited.done _ _

/-- That all replies of a parser have the property is closed under what bodies do, whatever label a
fault has. -/
theorem bodyClosed : BodyClosed fun parser => Always holds parser where
  pure := inherited.pure
  bind := inherited.bind
  map := inherited.map
  manyUntil _ := inherited.manyUntil
  fail _ := inherited.fail _
  require _ := inherited.require _
  token := inherited.token
  requireName := inherited.requireName
  operReader := inherited.operReader
  numBody := inherited.numBody
  chrBody := inherited.chrBody
  strBody := inherited.strBody

/-! ## Readers

Readers note events, of which a property need not hold. So the readers have a property under the
condition that it holds of the events that they note. -/

/-- The parser of terms has the property if it holds of every event of a form that is accepted where
the text has that form. -/
theorem term (accepted : ∀ form c, Form.at? (dropGap c.rest) = some form →
      holds (⟨[.accepted form.label c], .done () c⟩ : Reply Unit)) :
    Always holds Parser.term := by
  refine term_induction (fun _ => holds) (fun c => inherited.failed "" c)
    (fun c _ => inherited.failed "Term" c.skipGap) fun form c here inner => ?_
  have body := inherited.bodyClosed.body (takesText_shortOf c.remaining takesText_term) inner form
  exact inherited.after (accepted form c here) (body c)

variable (accepted : ∀ form c, Form.at? (dropGap c.rest) = some form →
  holds (⟨[.accepted form.label c], .done () c⟩ : Reply Unit))
include accepted

/-- The choice between the forms has the property as the parser of terms has. -/
theorem forms : Always holds (Parser.choice (Form.parsers Parser.term)) := by
  intro c
  rw [Form.parsers, Form.choice_forms, ← Form.at?]
  split
  · next form here =>
      have bodies := inherited.bodyClosed.body takesText_term (inherited.term accepted) form
      exact inherited.after (accepted form c here) (inherited.map some bodies c)
  · exact inherited.done none c

/-- The parser of rules has the property as the parser of terms has. -/
theorem rule : Always holds Parser.rule := by
  refine inherited.maybe (inherited.bind (inherited.forms accepted) fun lhs => ?_)
  cases lhs with
  | none => exact inherited.pure none
  | some lhs =>
      refine inherited.bind (inherited.token _) fun found => ?_
      cases found with
      | true => exact inherited.bind (inherited.term accepted) fun _ => inherited.pure _
      | false => exact inherited.pure none

variable (ruleRead : ∀ number place read c,
  holds (⟨[.ruleRead number place read], .done () c⟩ : Reply Unit))
include ruleRead

/-- A rule of a book has the property if it holds of the event that notes the rule. -/
theorem numberedRule (number : Nat) : Always holds (Parser.numberedRule number) := by
  refine inherited.bind inherited.skip fun _ => inherited.bind inherited.here fun place =>
    inherited.bind (inherited.rule accepted) fun read => ?_
  cases read with
  | none => exact inherited.failAt _ place
  | some read =>
      have noted : Always holds (note fun _ => .ruleRead number place read) :=
        ruleRead number place read
      exact inherited.bind noted fun _ => inherited.pure read

/-- The loop over the rules has the property from any number on. -/
theorem rules (number : Nat) : Always holds (Parser.rules number) :=
  inherited.manyUntilFrom inherited.atEnd takesText_numberedRule
    (inherited.numberedRule accepted ruleRead) number

/-- The parser of books has the property as the loop over the rules has. -/
theorem book : Always holds Parser.book :=
  inherited.map _ (inherited.rules accepted ruleRead 0)

end Inherited

end Termbook
