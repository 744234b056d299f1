import Termbook.Proofs.Onward

/-! # Every term takes text

The recursion of the parser of terms goes on only where less is left. That is never a restriction:
each body reads something before it asks for a subterm, so the parser of terms is the plain choice
between the forms, and every term that is read leaves less than there was. A repetition of elements
that take text unrolls in the same way. -/

namespace Termbook

namespace Cursor

/-- A text that is not empty stands here if the text from here on begins with it. -/
theorem startsWith_eq (c : Cursor) {pattern : List Char} (nonempty : pattern ≠ []) :
    c.startsWith pattern = pattern.isPrefixOf c.rest := by
  rw [startsWith]
  by_cases within : c.beyond = 0
  · simp [within]
  · have none : c.rest = [] := c.rest_eq_nil (Nat.pos_of_ne_zero within)
    cases pattern with
    | nil => exact absurd rfl nonempty
    | cons first others => simp [none]

/-- Passing over a text that stands here leaves less. -/
theorem remaining_advance_lt (c : Cursor) {pattern : List Char} (nonempty : pattern ≠ [])
    (here : c.startsWith pattern = true) :
    (c.advance pattern.length).remaining < c.remaining := by
  rw [c.startsWith_eq nonempty, List.isPrefixOf_iff_prefix] at here
  have := here.length_le
  have := List.length_pos_iff.mpr nonempty
  rw [remaining_advance, c.remaining_eq]
  omega

end Cursor

namespace Parser

variable {α β ι : Type}

/-! ## Outcomes of sequences -/

/-- A sequence is done if and only if its parts are, one after the other. -/
theorem outcome_bind_eq_done {first : Parser α} {next : α → Parser β} {c d : Cursor} {value : β} :
    ((first >>= next) c).outcome = .done value d ↔
      ∃ a e, (first c).outcome = .done a e ∧ (next a e).outcome = .done value d := by
  rw [bind_apply]
  rcases first c with ⟨trace, _ | _ | _⟩
  · simp only [Reply.outcome_after, Outcome.done.injEq]
    exact ⟨fun done => ⟨_, _, ⟨rfl, rfl⟩, done⟩, fun ⟨_, _, ⟨rfl, rfl⟩, done⟩ => done⟩
  · simp
  · simp

/-- A sequence fails if and only if its first part does, or that part is done and the second one
fails. -/
theorem outcome_bind_eq_failed {first : Parser α} {next : α → Parser β} {c : Cursor}
    {fault : Fault} :
    ((first >>= next) c).outcome = .failed fault ↔
      (first c).outcome = .failed fault ∨
        ∃ a e, (first c).outcome = .done a e ∧ (next a e).outcome = .failed fault := by
  rw [bind_apply]
  rcases first c with ⟨trace, _ | _ | _⟩
  · simp only [Reply.outcome_after, Outcome.done.injEq, reduceCtorEq, false_or]
    exact ⟨fun failed => ⟨_, _, ⟨rfl, rfl⟩, failed⟩, fun ⟨_, _, ⟨rfl, rfl⟩, failed⟩ => failed⟩
  · simp
  · simp

/-- A changed parser fails if and only if the parser does. -/
theorem outcome_map_eq_failed {change : α → β} {parser : Parser α} {c : Cursor} {fault : Fault} :
    ((change <$> parser) c).outcome = .failed fault ↔ (parser c).outcome = .failed fault := by
  rw [map_apply]
  rcases parser c with ⟨trace, _ | _ | _⟩ <;> simp

/-- A changed parser is done if and only if the parser is. -/
theorem outcome_map_eq_done {change : α → β} {parser : Parser α} {c d : Cursor} {value : β} :
    ((change <$> parser) c).outcome = .done value d ↔
      ∃ a, (parser c).outcome = .done a d ∧ change a = value := by
  rw [map_apply]
  rcases parser c with ⟨trace, _ | _ | _⟩
  · simp only [Outcome.done.injEq]
    exact ⟨fun ⟨changed, stopped⟩ => ⟨_, ⟨rfl, stopped⟩, changed⟩,
      fun ⟨_, ⟨same, stopped⟩, changed⟩ => ⟨same ▸ changed, stopped⟩⟩
  · simp
  · simp

/-- Two sequences agree where their first parts do and their second parts do from where those
stop. -/
theorem bind_congr {first first' : Parser α} {next next' : α → Parser β} {c : Cursor}
    (sameFirst : first c = first' c)
    (sameNext : ∀ value d, (first c).outcome = .done value d → next value d = next' value d) :
    (first >>= next) c = (first' >>= next') c := by
  rw [bind_apply, bind_apply, ← sameFirst]
  revert sameNext
  rcases first c with ⟨trace, ⟨value, d⟩ | _ | _⟩
  · intro sameNext
    simp only [sameNext value d rfl]
  · exact fun _ => rfl
  · exact fun _ => rfl

/-- A sequence has the outcome of another one if its parts have, from whatever places these
start. -/
theorem outcome_bind_congr {first first' : Parser α} {next next' : α → Parser β} {c d : Cursor}
    (sameFirst : (first c).outcome = (first' d).outcome)
    (sameNext : ∀ value e, (first c).outcome = .done value e →
      (next value e).outcome = (next' value e).outcome) :
    ((first >>= next) c).outcome = ((first' >>= next') d).outcome := by
  rw [bind_apply, bind_apply]
  revert sameFirst sameNext
  rcases first c with ⟨trace, outcome⟩
  rcases first' d with ⟨trace', outcome'⟩
  rintro rfl sameNext
  cases outcome with
  | done value e => exact sameNext value e rfl
  | failed fault => rfl
  | endless => rfl

/-- Changing the values of parsers that agree gives parsers that agree. -/
theorem map_congr {change : α → β} {parser parser' : Parser α} {c : Cursor}
    (same : parser c = parser' c) : (change <$> parser) c = (change <$> parser') c := by
  rw [map_apply, map_apply, same]

/-! ## Parsers that take text -/

/-- A parser takes text if it leaves less than there was whenever it is done. -/
def TakesText (parser : Parser α) : Prop :=
  ∀ c value next, (parser c).outcome = .done value next → next.remaining < c.remaining

theorem takesText_bind_left {first : Parser α} {next : α → Parser β} (takes : TakesText first)
    (forward : ∀ value, Forward (next value)) : TakesText (first >>= next) := by
  intro c value d done
  obtain ⟨a, e, firstDone, nextDone⟩ := outcome_bind_eq_done.mp done
  exact Nat.lt_of_le_of_lt ((forward a).onward nextDone).remaining_le (takes _ _ _ firstDone)

theorem takesText_bind_right {first : Parser α} {next : α → Parser β} (forward : Forward first)
    (takes : ∀ value, TakesText (next value)) : TakesText (first >>= next) := by
  intro c value d done
  obtain ⟨a, e, firstDone, nextDone⟩ := outcome_bind_eq_done.mp done
  exact Nat.lt_of_lt_of_le (takes a _ _ _ nextDone) (forward.onward firstDone).remaining_le

theorem takesText_map {change : α → β} {parser : Parser α} (takes : TakesText parser) :
    TakesText (change <$> parser) := by
  intro c value d done
  obtain ⟨a, parserDone, -⟩ := outcome_map_eq_done.mp done
  exact takes _ _ _ parserDone

theorem takesText_require {pattern : List Char} (nonempty : pattern ≠ []) :
    TakesText (require pattern) := by
  intro c value d done
  simp only [require] at done
  split at done
  · next here =>
      cases done
      exact Nat.lt_of_lt_of_le (c.skipGap.remaining_advance_lt nonempty here)
        c.remaining_skipGap_le
  · contradiction

theorem takesText_requireName : TakesText requireName := by
  intro c value d done
  simp only [requireName] at done
  split at done
  · contradiction
  · next nonempty =>
      cases done
      have longEnough := List.takeWhile_prefix isNameChar (l := c.skipGap.rest) |>.length_le
      have := List.length_pos_iff.mpr (mt List.isEmpty_iff.mpr nonempty)
      have := c.remaining_skipGap_le
      rw [Cursor.remaining_advance, c.skipGap.remaining_eq]
      rw [c.skipGap.remaining_eq] at this
      omega

theorem takesText_sequence {opening closing : List Char} (nonempty : opening ≠ [])
    {element : Parser α} (forward : Forward element) :
    TakesText (sequence opening closing element) :=
  takesText_bind_left (takesText_require nonempty) fun _ =>
    forward_manyUntil (forward_token closing) forward

end Parser

namespace Form

open Termbook.Parser

variable {term term' : Parser Term}

/-- An item of a list takes text if its term does; the comma adds to it. -/
theorem takesText_lstItem (takes : TakesText term) : TakesText (lstItem term) :=
  takesText_bind_left takes fun _ => forward_bind (forward_token _) fun _ => forward_pure _

/-- Every body takes text. -/
theorem takesText_body (forward : Forward term) (form : Form) : TakesText (form.body term) := by
  cases form with
  | letIn =>
      exact takesText_bind_left (takesText_require (by decide)) fun _ =>
        forward_bind forward_requireName fun _ => forward_bind (forward_require _) fun _ =>
          forward_bind forward fun _ => forward_bind (forward_require _) fun _ =>
            forward_bind forward fun _ => forward_pure _
  | dup =>
      exact takesText_bind_left (takesText_require (by decide)) fun _ =>
        forward_bind forward_requireName fun _ => forward_bind forward_requireName fun _ =>
          forward_bind (forward_require _) fun _ => forward_bind forward fun _ =>
            forward_bind (forward_require _) fun _ => forward_bind forward fun _ => forward_pure _
  | lam =>
      refine takesText_bind_right forward_lamHead fun found => ?_
      have named : TakesText (do
          let name ← requireName
          let body ← term
          return Term.lam name body) :=
        takesText_bind_left takesText_requireName fun _ =>
          forward_bind forward fun _ => forward_pure _
      dsimp only
      split
      · exact takesText_bind_right (forward_fail _) fun _ => named
      · exact named
  | ctr =>
      refine takesText_bind_right (forward_token _) fun opened =>
        takesText_bind_left takesText_requireName fun name => ?_
      split
      · exact forward_bind (forward_manyUntil (forward_token _) forward) fun _ => forward_pure _
      · exact forward_pure _
  | op2 =>
      exact takesText_bind_left (takesText_require (by decide)) fun _ =>
        forward_bind forward_operReader fun _ => forward_bind forward fun _ =>
          forward_bind forward fun _ => forward_bind (forward_require _) fun _ => forward_pure _
  | app => exact takesText_map (takesText_sequence (by decide) forward)
  | num =>
      refine takesText_bind_right forward_here fun start => ?_
      intro c value d done
      obtain ⟨numeral, e, named, done⟩ := outcome_bind_eq_done.mp done
      have := takesText_requireName _ _ _ named
      cases read : readNumeral? numeral.toList with
      | none =>
          rw [read] at done
          contradiction
      | some number =>
          rw [read] at done
          cases done
          exact this
  | chr =>
      refine takesText_bind_left (takesText_require (by decide)) fun _ =>
        forward_bind forward_peek fun found => ?_
      split
      · exact fun c => .refl c
      · refine forward_bind forward_advance fun _ =>
          forward_bind (forward_exactly _) fun closed => ?_
        dsimp only
        split
        · exact fun c => .refl c
        · exact forward_pure _
  | str =>
      intro c value d done
      simp only [body, strBody] at done
      split at done
      · contradiction
      · next rest =>
          cases done
          have left : c.skipGap.remaining = c.skipGap.rest.length := c.skipGap.remaining_eq
          have := c.remaining_skipGap_le
          rw [rest, List.length_cons] at left
          rw [Cursor.remaining_advance]
          omega
  | lst => exact takesText_map (takesText_sequence (by decide) (forward_lstItem forward))
  | var => exact takesText_map takesText_requireName

end Form

/-! ## Repetitions unrolled -/

namespace Parser

/-- A parser where less is left than `limit`, and an endless one elsewhere. -/
def below (limit : Nat) (parser : Parser α) : Parser α := fun c =>
  if c.remaining < limit then parser c else .endless

theorem below_apply {limit : Nat} {parser : Parser α} {c : Cursor} (less : c.remaining < limit) :
    below limit parser c = parser c :=
  if_pos less

/-- Below a limit only the answers where less is left matter. -/
theorem below_congr {limit : Nat} {parser other : Parser α}
    (same : ∀ c, c.remaining < limit → parser c = other c) :
    below limit parser = below limit other := by
  funext c
  rw [below, below]
  split
  · next less => exact same c less
  · rfl

theorem forward_below (limit : Nat) {parser : Parser α} (forward : Forward parser) :
    Forward (below limit parser) := by
  intro c
  rw [below]
  split
  · exact forward c
  · trivial

/-- A recursive parser is one step, which goes on with the parser itself below its start. -/
theorem fix_eq_below (step : (ι → Parser α) → ι → Parser α) (parameter : ι) (c : Cursor) :
    fix step parameter c =
      step (fun next => below c.remaining (fix step next)) parameter c :=
  fix_apply step parameter c

variable {closing : Closing} {element element' : Nat → Parser α}

/-- Where no closing stands, looking for one leaves the place as it is. -/
theorem eq_of_outcome_closes {c d : Cursor} (open_ : (closes closing c).outcome = .done false d) :
    d = c := by
  rw [closes] at open_
  revert open_
  rcases closing.parser c with ⟨trace, ⟨_ | _, _⟩ | _ | _⟩
  · intro open_
    cases open_
    rfl
  · intro open_
    cases open_
  · intro open_
    contradiction
  · intro open_
    contradiction

/-- What a repetition reads where no closing stands: an element, and then on with `again`. -/
def readOn (closing : Closing) (element : Nat → Parser α) (again : Nat → Parser (List α))
    (number : Nat) : Parser (List α) := fun c =>
  if c.skipGap.rest.isEmpty then .failed closing.label c.skipGap
  else (do
    let value ← element number
    return value :: (← again (number + 1))) c

/-- One round of a repetition, which goes on with `again`. -/
def round (closing : Closing) (element : Nat → Parser α) (again : Nat → Parser (List α))
    (number : Nat) : Parser (List α) := do
  if ← closes closing then
    return []
  readOn closing element again number

/-- A repetition is one round, which goes on with the repetition itself wherever less is left. -/
theorem manyUntilFrom_eq_round (number : Nat) (c : Cursor) :
    manyUntilFrom closing element number c =
      round closing element (fun next => below c.remaining (manyUntilFrom closing element next))
        number c := by
  rw [manyUntilFrom, fix_eq_below]
  refine bind_congr rfl fun closed d _ => ?_
  cases closed with
  | true => rfl
  | false =>
      have ahead : lookAhead atEnd d = .done d.skipGap.rest.isEmpty d := rfl
      simp only [Bool.false_eq_true, if_false, readOn]
      rw [bind_apply, ahead]
      cases d.skipGap.rest.isEmpty <;> rfl

/-- Rounds agree at a place if their elements do there and if what they go on with does wherever
the element stops. -/
theorem round_congr {again again' : Nat → Parser (List α)} {number : Nat} {c : Cursor}
    (sameElement : element number c = element' number c)
    (sameAgain : ∀ value d, (element number c).outcome = .done value d →
      again (number + 1) d = again' (number + 1) d) :
    round closing element again number c = round closing element' again' number c := by
  refine bind_congr rfl fun closed d closedDone => ?_
  cases closed with
  | true => rfl
  | false =>
      cases eq_of_outcome_closes closedDone
      simp only [Bool.false_eq_true, if_false, readOn]
      split
      · rfl
      · exact bind_congr sameElement fun value d done => bind_congr (sameAgain value d done)
          fun _ _ _ => rfl

/-- Repetitions agree at a place if their elements do wherever no more is left than there. -/
theorem manyUntilFrom_congr {c : Cursor}
    (same : ∀ number d, d.remaining ≤ c.remaining → element number d = element' number d)
    (number : Nat) :
    manyUntilFrom closing element number c = manyUntilFrom closing element' number c := by
  induction size : c.remaining using Nat.strongRecOn generalizing c number with
  | ind size ih =>
      rw [manyUntilFrom_eq_round, manyUntilFrom_eq_round]
      refine round_congr (same number c (Nat.le_refl _)) fun value d done => ?_
      rw [below, below]
      split
      · -- less is left, so the repetitions that go on from here agree by induction
        next less =>
          have bound (number : Nat) (e : Cursor) (le : e.remaining ≤ d.remaining) :
              element number e = element' number e :=
            same number e (Nat.le_trans le (Nat.le_of_lt less))
          exact ih _ (size ▸ less) bound _ rfl
      · rfl

/-- A repetition of elements that take text is one round after another. -/
theorem manyUntilFrom_apply (takes : ∀ number, TakesText (element number)) (number : Nat)
    (c : Cursor) :
    manyUntilFrom closing element number c =
      round closing element (manyUntilFrom closing element) number c := by
  rw [manyUntilFrom_eq_round]
  refine round_congr rfl fun value d done => ?_
  exact below_apply (takes number c value d done)

end Parser

/-! ## Terms without the check -/

namespace Form

open Termbook.Parser

variable {term term' : Parser Term}

/-- A body reads something before it asks for a subterm, so it depends on the parser of subterms
only where less is left. -/
theorem body_congr (forward : Forward term) {c : Cursor}
    (same : ∀ d : Cursor, d.remaining < c.remaining → term d = term' d) (form : Form) :
    form.body term c = form.body term' c := by
  -- the text that the opening of a form takes is the margin by which each later place is below `c`
  cases form with
  | letIn =>
      refine bind_congr rfl fun _ d₁ marked => bind_congr rfl fun _ d₂ named =>
        bind_congr rfl fun _ d₃ equals => ?_
      have := takesText_require (by decide) _ _ _ marked
      have := (forward_requireName.onward named).remaining_le
      have := ((forward_require _).onward equals).remaining_le
      refine bind_congr (same d₃ (by omega)) fun _ d₄ read =>
        bind_congr rfl fun _ d₅ semicolon => ?_
      have := (forward.onward read).remaining_le
      have := ((forward_require _).onward semicolon).remaining_le
      exact bind_congr (same d₅ (by omega)) fun _ _ _ => rfl
  | dup =>
      refine bind_congr rfl fun _ d₁ marked => bind_congr rfl fun _ d₂ named =>
        bind_congr rfl fun _ d₂' named' => bind_congr rfl fun _ d₃ equals => ?_
      have := takesText_require (by decide) _ _ _ marked
      have := (forward_requireName.onward named).remaining_le
      have := (forward_requireName.onward named').remaining_le
      have := ((forward_require _).onward equals).remaining_le
      refine bind_congr (same d₃ (by omega)) fun _ d₄ read =>
        bind_congr rfl fun _ d₅ semicolon => ?_
      have := (forward.onward read).remaining_le
      have := ((forward_require _).onward semicolon).remaining_le
      exact bind_congr (same d₅ (by omega)) fun _ _ _ => rfl
  | lam =>
      refine bind_congr rfl fun found d₁ marked => ?_
      have := (forward_lamHead.onward marked).remaining_le
      -- the mark takes no text that counts here, since the name after it takes some
      have named : ∀ d : Cursor, d.remaining ≤ c.remaining →
          (do let name ← requireName; let body ← term; return Term.lam name body) d =
            (do let name ← requireName; let body ← term'; return Term.lam name body) d := by
        intro d le
        refine bind_congr rfl fun _ e named => ?_
        have := takesText_requireName _ _ _ named
        exact bind_congr (same e (by omega)) fun _ _ _ => rfl
      cases found with
      | true => exact named d₁ this
      | false => rfl
  | ctr =>
      refine bind_congr rfl fun opened d₁ bracket => bind_congr rfl fun name d₂ named => ?_
      have := ((forward_token _).onward bracket).remaining_le
      have := takesText_requireName _ _ _ named
      cases opened with
      | true =>
          exact bind_congr (manyUntilFrom_congr (fun _ d le => same d (by omega)) 0)
            fun _ _ _ => rfl
      | false => rfl
  | op2 =>
      refine bind_congr rfl fun _ d₁ bracket => bind_congr rfl fun _ d₂ operator => ?_
      have := takesText_require (by decide) _ _ _ bracket
      have := (forward_operReader.onward operator).remaining_le
      refine bind_congr (same d₂ (by omega)) fun _ d₃ read => ?_
      have := (forward.onward read).remaining_le
      exact bind_congr (same d₃ (by omega)) fun _ _ _ => rfl
  | app =>
      refine map_congr (bind_congr rfl fun _ d₁ bracket => ?_)
      have := takesText_require (by decide) _ _ _ bracket
      exact manyUntilFrom_congr (fun _ d le => same d (by omega)) 0
  | lst =>
      refine map_congr (bind_congr rfl fun _ d₁ bracket => ?_)
      have := takesText_require (by decide) _ _ _ bracket
      exact manyUntilFrom_congr
        (fun _ d le => bind_congr (same d (by omega)) fun _ _ _ => rfl) 0
  | num | chr | str | var => rfl

end Form

namespace Parser

/-- Choices agree at a place if their alternatives do. -/
theorem choice_map_congr {alternative alternative' : ι → Parser (Option α)} {c : Cursor}
    (same : ∀ i, alternative i c = alternative' i c) (indices : List ι) :
    choice (indices.map alternative) c = choice (indices.map alternative') c := by
  induction indices with
  | nil => rfl
  | cons i indices ih =>
      simp only [List.map_cons, choice]
      rw [same i, ih]

/-- The parser of terms is the choice between the forms, with itself as the parser of subterms. -/
theorem term_apply (c : Cursor) : term c = grammar "Term" (Form.parsers term) c := by
  have forward : Forward (below c.remaining term) := forward_below _ forward_term
  -- below `c` the check makes no difference, and a body asks for subterms only there
  have sameForm (form : Form) : form.parser (below c.remaining term) c = form.parser term c := by
    have sameBody := form.body_congr forward (c := c) fun _ less => below_apply less
    have sameNoted : (do note (.accepted form.label); form.body (below c.remaining term)) c =
        (do note (.accepted form.label); form.body term) c :=
      bind_congr rfl fun _ _ noted => by cases noted; exact sameBody
    simp only [Form.parser, guarded, guard]
    rw [map_congr sameNoted]
  have unfolded : term c = grammar "Term" (Form.all.map fun form =>
      form.parser (below c.remaining term)) c :=
    fix_eq_below _ () c
  rw [unfolded, grammar, grammar, choice_map_congr sameForm]
  rfl

end Parser

end Termbook
