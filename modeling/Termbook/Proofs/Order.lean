import Termbook.Proofs.Totality

/-! # Forms are accepted in the order of the text

The places where forms are accepted go forward as a reading goes on. Each parser keeps to an order:
what it notes lies onward from where it starts, each place before the next one, and where it is done
it stops behind all of them. Sequences keep to the order part by part, and a form is noted before
anything of its body is read. -/

namespace Termbook

open Termbook.Parser

variable {α β : Type}

/-! ## The places in a trace -/

/-- The place of an event that notes a form. -/
def Event.accepted? : Event → Option Cursor
  | .accepted _ place => some place
  | .ruleRead .. => none

/-- The places where forms have been accepted, in the order in which they were noted. -/
def acceptedPlaces (trace : List Event) : List Cursor :=
  trace.filterMap Event.accepted?

@[simp] theorem acceptedPlaces_nil : acceptedPlaces [] = [] := rfl

@[simp] theorem acceptedPlaces_accepted (label : String) (place : Cursor) (trace : List Event) :
    acceptedPlaces (.accepted label place :: trace) = place :: acceptedPlaces trace := rfl

@[simp] theorem acceptedPlaces_ruleRead (number : Nat) (place : Cursor) (rule : Rule)
    (trace : List Event) :
    acceptedPlaces (.ruleRead number place rule :: trace) = acceptedPlaces trace := rfl

@[simp] theorem acceptedPlaces_append (before after : List Event) :
    acceptedPlaces (before ++ after) = acceptedPlaces before ++ acceptedPlaces after :=
  List.filterMap_append

/-! ## Order -/

/-- A trace noted from a place on: forms are accepted onward from there, where something is left to
read, and less is left at each of them than at the one before. -/
structure Ascends (c : Cursor) (trace : List Event) : Prop where
  /-- Every form is accepted onward from the start, before the end of the text. -/
  within : ∀ place ∈ acceptedPlaces trace, c.Onward place ∧ 0 < place.remaining
  /-- Less is left at each form than at any form noted before it. -/
  ordered : (acceptedPlaces trace).Pairwise fun earlier later => later.remaining < earlier.remaining

/-- A reply from a place that keeps to the order of the text. -/
structure Reply.Orderly (c : Cursor) (reply : Reply α) : Prop where
  /-- The forms that it notes go forward. -/
  ascends : Ascends c reply.trace
  /-- It ends onward from its start. -/
  onward : reply.outcome.Onward c
  /-- Where it is done, it has passed every form that it noted. -/
  passed : ∀ value next, reply.outcome = .done value next →
    ∀ place ∈ acceptedPlaces reply.trace, next.remaining < place.remaining

/-- A parser whose replies all keep to the order of the text. -/
def Parser.Orderly (parser : Parser α) : Prop :=
  ∀ c, (parser c).Orderly c

/-- Nothing noted goes forward. -/
theorem ascends_nil (c : Cursor) : Ascends c [] where
  within := by simp
  ordered := .nil

/-- What is noted from a place on goes forward after what has been noted up to it. -/
theorem Ascends.append {c d : Cursor} {before after : List Event} (first : Ascends c before)
    (behind : ∀ place ∈ acceptedPlaces before, d.remaining < place.remaining) (onward : c.Onward d)
    (second : Ascends d after) : Ascends c (before ++ after) where
  within := by
    intro place member
    rw [acceptedPlaces_append] at member
    rcases List.mem_append.mp member with earlier | later
    · exact first.within place earlier
    · exact ⟨onward.trans (second.within place later).1, (second.within place later).2⟩
  ordered := by
    rw [acceptedPlaces_append]
    refine List.pairwise_append.mpr ⟨first.ordered, second.ordered, ?_⟩
    -- what is noted first has been passed at `d`, and what is noted next lies onward from there
    intro place earlier other later
    have := behind place earlier
    have := (second.within other later).1.remaining_le
    omega

/-- An event that notes a rule is at no place of the order. -/
theorem ascends_append_ruleRead {c : Cursor} {trace : List Event} {number : Nat} {place : Cursor}
    {rule : Rule} : Ascends c (trace ++ [.ruleRead number place rule]) ↔ Ascends c trace := by
  have same : acceptedPlaces (trace ++ [.ruleRead number place rule]) = acceptedPlaces trace := by
    simp
  exact ⟨fun ⟨within, ordered⟩ => ⟨same ▸ within, same ▸ ordered⟩,
    fun ⟨within, ordered⟩ => ⟨same.symm ▸ within, same.symm ▸ ordered⟩⟩

namespace Reply.Orderly

variable {c d : Cursor}

/-- A reply keeps to the order if it goes on where an orderly one was done. -/
theorem after {trace : List Event} {value : α} {reply : Reply β}
    (first : Orderly c ⟨trace, .done value d⟩) (second : Orderly d reply) :
    Orderly c (reply.after trace) where
  ascends := first.ascends.append (first.passed value d rfl) first.onward second.ascends
  onward := Outcome.Onward.trans first.onward second.onward
  passed := by
    intro result next done place member
    rw [trace_after, acceptedPlaces_append] at member
    rcases List.mem_append.mp member with earlier | later
    · have onward : d.Onward next := by
        have := second.onward
        rwa [← outcome_after trace, done] at this
      have := first.passed value d rfl place earlier
      have := onward.remaining_le
      omega
    · exact second.passed result next done place later

/-- An orderly reply may fail instead, wherever onward. -/
theorem failedInstead {trace : List Event} {outcome : Outcome α} {fault : Fault}
    (orderly : Orderly c ⟨trace, outcome⟩) (onward : c.Onward fault.place) :
    Orderly c (⟨trace, .failed fault⟩ : Reply β) :=
  ⟨orderly.ascends, onward, nofun⟩

/-- An orderly reply may never end instead. -/
theorem endlessInstead {trace : List Event} {outcome : Outcome α}
    (orderly : Orderly c ⟨trace, outcome⟩) : Orderly c (⟨trace, .endless⟩ : Reply β) :=
  ⟨orderly.ascends, trivial, nofun⟩

/-- An orderly reply may be done with another value. -/
theorem otherValue {trace : List Event} {value : α} {next : Cursor}
    (orderly : Orderly c ⟨trace, .done value next⟩) (value' : β) :
    Orderly c ⟨trace, .done value' next⟩ := by
  refine ⟨orderly.ascends, orderly.onward, fun _ _ done => ?_⟩
  cases done
  exact orderly.passed value next rfl

/-- An orderly body is orderly with its own form noted before it, if all that it notes and the place
where it is done lie further on. -/
theorem accepted {label : String} {reply : Reply α} (body : Orderly c reply)
    (left : 0 < c.remaining)
    (inside : ∀ place ∈ acceptedPlaces reply.trace, place.remaining < c.remaining)
    (taken : ∀ value next, reply.outcome = .done value next → next.remaining < c.remaining) :
    Orderly c (reply.after [.accepted label c]) where
  ascends :=
    { within := by
        intro place member
        rw [trace_after, List.singleton_append, acceptedPlaces_accepted] at member
        rcases List.mem_cons.mp member with rfl | member
        · exact ⟨.refl place, left⟩
        · exact body.ascends.within place member
      ordered := List.pairwise_cons.mpr ⟨inside, body.ascends.ordered⟩ }
  onward := body.onward
  passed := by
    intro value next done place member
    rw [trace_after, List.singleton_append, acceptedPlaces_accepted] at member
    rcases List.mem_cons.mp member with rfl | member
    · exact taken value next done
    · exact body.passed value next done place member

end Reply.Orderly

/-- A form that is accepted at all is accepted where less than `limit` is left. -/
def Event.Below (limit : Nat) (event : Event) : Prop :=
  ∀ place, event.accepted? = some place → place.remaining < limit

/-- Where a text has a form, something is left of it. -/
theorem remaining_pos_of_form {c : Cursor} {form : Form}
    (here : Form.at? (dropGap c.rest) = some form) : 0 < c.remaining := by
  rw [c.remaining_eq, List.length_pos_iff]
  intro nothing
  rw [nothing] at here
  have noForm : Form.at? (dropGap []) = none := by decide
  exact absurd (noForm.symm.trans here) nofun

/-- A fault onward, with nothing noted, keeps to the order. -/
theorem orderly_failed (expected : String) {c place : Cursor} (onward : c.Onward place) :
    (Reply.failed expected place : Reply α).Orderly c :=
  ⟨ascends_nil c, onward, nofun⟩

/-! ## Parsers that note nothing -/

/-- Sequences inherit that nothing is noted. -/
theorem inherited_silent : Inherited fun reply => reply.trace = [] where
  quiet silent _ := silent
  after first second := by
    simp only at first
    rw [Reply.trace_after, first, second, List.nil_append]
  other silent _ := silent

namespace Parser

/-- A reply that notes nothing is orderly if it ends onward. -/
theorem orderly_of_silent {parser : Parser α}
    (silent : Always (fun reply => reply.trace = []) parser) (forward : Forward parser) :
    Orderly parser := by
  intro c
  have noPlaces : acceptedPlaces (parser c).trace = [] := by rw [silent c, acceptedPlaces_nil]
  exact ⟨silent c ▸ ascends_nil c, forward c, by simp [noPlaces]⟩

theorem orderly_pure (value : α) : Orderly (pure value : Parser α) :=
  orderly_of_silent (inherited_silent.pure value) (forward_pure value)

theorem orderly_token (pattern : List Char) : Orderly (token pattern) :=
  orderly_of_silent (inherited_silent.token pattern) (forward_token pattern)

theorem orderly_require (pattern : List Char) : Orderly (require pattern) :=
  orderly_of_silent (inherited_silent.require pattern) (forward_require pattern)

theorem orderly_requireName : Orderly requireName :=
  orderly_of_silent inherited_silent.requireName forward_requireName

/-! ## Combinators -/

/-- A sequence is orderly at a place if its first part is orderly there and its second part wherever
the first one stops. -/
theorem orderly_bind_at {first : Parser α} {next : α → Parser β} {c : Cursor}
    (head : (first c).Orderly c)
    (tail : ∀ value d, (first c).outcome = .done value d → (next value d).Orderly d) :
    ((first >>= next) c).Orderly c := by
  rw [bind_apply]
  revert head tail
  rcases first c with ⟨trace, ⟨value, d⟩ | fault | _⟩
  · exact fun head tail => head.after (tail value d rfl)
  · exact fun head _ => head.failedInstead head.onward
  · exact fun head _ => head.endlessInstead

theorem orderly_bind {first : Parser α} {next : α → Parser β} (head : Orderly first)
    (tail : ∀ value, Orderly (next value)) : Orderly (first >>= next) :=
  fun c => orderly_bind_at (head c) fun value d _ => tail value d

/-- A changed value is answered in the same order. -/
theorem orderly_map_at {parser : Parser α} (change : α → β) {c : Cursor}
    (orderly : (parser c).Orderly c) : ((change <$> parser) c).Orderly c := by
  rw [map_apply]
  revert orderly
  rcases parser c with ⟨trace, ⟨value, d⟩ | fault | _⟩
  · exact fun orderly => orderly.otherValue _
  · exact fun orderly => orderly.failedInstead orderly.onward
  · exact fun orderly => orderly.endlessInstead

theorem orderly_map {parser : Parser α} (change : α → β) (orderly : Orderly parser) :
    Orderly (change <$> parser) :=
  fun c => orderly_map_at change (orderly c)

/-- A parser that goes back to the start where it has no value keeps to the order as far as it has
one. -/
theorem order_maybe {parser : Parser (Option α)} (orderly : Orderly parser) (c : Cursor) :
    Ascends c (maybe parser c).trace ∧
      ∀ value d, (maybe parser c).outcome = .done (some value) d →
        ∀ place ∈ acceptedPlaces (maybe parser c).trace, d.remaining < place.remaining := by
  -- going back changes nothing of what has been noted
  have trace : (maybe parser c).trace = (parser c).trace := by
    rw [maybe]
    rcases parser c with ⟨trace, ⟨_ | _, _⟩ | _ | _⟩ <;> rfl
  rw [trace]
  exact ⟨(orderly c).ascends, fun value d done =>
    (orderly c).passed (some value) d (outcome_maybe_eq_some.mp done)⟩

/-- A closing that is not there leaves the place as it is. -/
theorem orderly_closes {closing : Closing}
    (silent : Always (fun reply => reply.trace = []) closing.parser)
    (forward : Forward closing.parser) : Orderly (closes closing) :=
  orderly_of_silent (inherited_silent.closes silent) (forward_closes forward)

/-- A repetition is orderly if its elements are, and take text. -/
theorem orderly_manyUntilFrom {closing : Closing} {element : Nat → Parser α}
    (silent : Always (fun reply => reply.trace = []) closing.parser)
    (forward : Forward closing.parser) (takes : ∀ number, TakesText (element number))
    (orderly : ∀ number, Orderly (element number)) (number : Nat) :
    Orderly (manyUntilFrom closing element number) := by
  intro c
  induction size : c.remaining using Nat.strongRecOn generalizing c number with
  | ind size ih =>
      rw [manyUntilFrom_apply takes, round]
      refine orderly_bind_at (orderly_closes silent forward c) fun closed d open_ => ?_
      cases closed with
      | true => exact orderly_pure [] d
      | false =>
          cases eq_of_outcome_closes open_
          simp only [Bool.false_eq_true, if_false, readOn]
          split
          · -- the text has ended before the closing
            exact orderly_failed _ c.onward_skipGap
          · refine orderly_bind_at (orderly number c) fun value d done => ?_
            have less := takes number c value d done
            exact orderly_bind_at (ih _ (size ▸ less) _ _ rfl) fun _ e _ => orderly_pure _ e

theorem orderly_manyUntil {pattern : List Char} {element : Parser α} (takes : TakesText element)
    (orderly : Orderly element) : Orderly (manyUntil (.token pattern) element) :=
  orderly_manyUntilFrom (inherited_silent.token pattern) (forward_token pattern) (fun _ => takes)
    (fun _ => orderly) 0

/-- Order is closed under what bodies do: their tokens note nothing and go forward. -/
theorem bodyClosed_orderly : BodyClosed Orderly where
  pure := orderly_pure
  bind := orderly_bind
  map := orderly_map
  manyUntil _ := orderly_manyUntil
  fail _ := orderly_of_silent (inherited_silent.fail _) (forward_fail _)
  require _ := orderly_require _
  token := orderly_token
  requireName := orderly_requireName
  operReader := orderly_of_silent inherited_silent.operReader Form.forward_operReader
  numBody := orderly_of_silent inherited_silent.numBody Form.forward_numBody
  chrBody := orderly_of_silent inherited_silent.chrBody Form.forward_chrBody
  strBody := orderly_of_silent inherited_silent.strBody Form.forward_strBody

/-- Kept to where less is left than `limit`, an orderly parser notes forms only there. -/
theorem below_shortOf {limit : Nat} {parser : Parser α} (orderly : Orderly (shortOf limit parser)) :
    Always (fun reply => ∀ event ∈ reply.trace, event.Below limit) (shortOf limit parser) := by
  intro d event member place isPlace
  have noted : place ∈ acceptedPlaces (shortOf limit parser d).trace :=
    List.mem_filterMap.mpr ⟨event, member, isPlace⟩
  have onward := ((orderly d).ascends.within place noted).1
  rw [shortOf] at member
  split at member
  · next less => exact Nat.lt_of_le_of_lt onward.remaining_le less
  · contradiction

/-- The parser of terms is orderly. -/
theorem orderly_term : Orderly term := by
  refine term_induction (fun c reply => reply.Orderly c) (fun c => orderly_failed "" (.refl c))
    (fun c _ => orderly_failed "Term" c.onward_skipGap) fun form c here subterms => ?_
  have takes := takesText_shortOf c.remaining takesText_term
  refine (bodyClosed_orderly.body takes subterms form c).accepted (remaining_pos_of_form here)
    (fun place member => ?_) ?_
  · obtain ⟨event, member, isPlace⟩ := List.mem_filterMap.mp member
    have below := (inherited_events _).bodyClosed.body takes (below_shortOf subterms) form c
    exact below event member place isPlace
  · exact form.takesText_body (fun d => (subterms d).onward) c

/-- The choice between the forms is orderly as the parser of terms is. -/
theorem orderly_forms : Orderly (choice (Form.parsers term)) := by
  intro c
  rw [Form.parsers, Form.choice_forms, ← Form.at?]
  have noted := orderly_term c
  rw [term_eq_body] at noted
  split
  · next form here =>
      rw [here] at noted
      dsimp only at noted
      rw [map_apply]
      revert noted
      rcases form.body term c with ⟨trace, ⟨value, d⟩ | fault | _⟩
      · exact fun noted => noted.otherValue (some value)
      · exact fun noted => noted.failedInstead noted.onward
      · exact fun noted => noted.endlessInstead
  · exact orderly_pure none c

/-! ## Rules -/

/-- What a rule notes goes forward, and where there is a rule the reading stops behind all of
it. -/
theorem order_rule (c : Cursor) :
    Ascends c (rule c).trace ∧
      ∀ read d, (rule c).outcome = .done (some read) d →
        ∀ place ∈ acceptedPlaces (rule c).trace, d.remaining < place.remaining := by
  refine order_maybe (orderly_bind orderly_forms fun lhs => ?_) c
  cases lhs with
  | none => exact orderly_pure none
  | some lhs =>
      refine orderly_bind (orderly_token _) fun found => ?_
      cases found with
      | true => exact orderly_bind orderly_term fun _ => orderly_pure _
      | false => exact orderly_pure none

/-! ## Books -/

/-- A rule of a book is orderly. Where no rule stands it fails, so there is nothing to pass. -/
theorem orderly_numberedRule (number : Nat) : Orderly (numberedRule number) := by
  intro c
  have forward := forward_numberedRule number c
  obtain ⟨inner, passed⟩ := order_rule c.skipGap
  -- what goes forward from behind the gap goes forward from before it
  have ascends : Ascends c (rule c.skipGap).trace :=
    (ascends_nil c).append (by simp) c.onward_skipGap inner
  clear inner
  rw [numberedRule_apply] at forward ⊢
  revert forward passed ascends
  rcases rule c.skipGap with ⟨trace, ⟨_ | read, d⟩ | fault | _⟩
  · exact fun forward _ ascends => ⟨ascends, forward, nofun⟩
  · intro forward passed ascends
    refine ⟨ascends_append_ruleRead.mpr ascends, forward, fun value next done place member => ?_⟩
    cases done
    exact passed read d rfl place (by simpa using member)
  · exact fun forward _ ascends => ⟨ascends, forward, nofun⟩
  · exact fun forward _ ascends => ⟨ascends, forward, nofun⟩

/-- The loop over the rules is orderly. -/
theorem orderly_rules (number : Nat) : Orderly (rules number) :=
  orderly_manyUntilFrom inherited_silent.atEnd forward_atEnd takesText_numberedRule
    orderly_numberedRule number

/-- The parser of books is orderly. -/
theorem orderly_book : Orderly book :=
  orderly_map _ (orderly_rules 0)

end Parser

end Termbook
