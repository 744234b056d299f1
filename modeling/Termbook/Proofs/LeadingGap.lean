import Termbook.Proofs.Acceptance

/-! # The gap before a term

A gap before a term makes no difference: the reader ends there as it ends after the gap. Each parser
passes over the gap before its first token, and one that reads nothing because its token is missing
leaves the place to the next parser, which passes over the same gap. -/

namespace Termbook

open Cursor (start)

namespace Cursor

/-- No gap is left after a gap. -/
@[simp] theorem skipGap_skipGap (c : Cursor) : c.skipGap.skipGap = c.skipGap := by
  apply ext
  · rw [rest_skipGap, rest_skipGap, dropGap_dropGap]
  · rfl

end Cursor

namespace Parser

variable {α β : Type} {pattern : List Char}

/-- A parser ignores the gap before it if it ends alike from the place after that gap. -/
def IgnoresGap (parser : Parser α) : Prop :=
  ∀ c : Cursor, (parser c.skipGap).outcome = (parser c).outcome

/-- A parser that ignores the gap before it fails no earlier than after the gap. -/
theorem IgnoresGap.suffix_of_failed {parser : Parser α} (ignores : IgnoresGap parser)
    (forward : Forward parser) {text left : List Char} {fault : Fault}
    (failed : (parser (start text)).outcome = .failed fault) (place : fault.place = start left) :
    left <:+ dropGap text := by
  have onward := forward (start (dropGap text))
  rw [← Cursor.skipGap_start, ignores, failed] at onward
  obtain ⟨count, advanced⟩ := onward
  rw [place, Cursor.skipGap_start, Cursor.advance_start, Cursor.start_inj] at advanced
  rw [advanced]
  exact List.drop_suffix ..

/-! ## Tokens -/

theorem ignoresGap_fail (expected : String) : IgnoresGap (fail (α := α) expected) := fun c => by
  rw [fail, fail, c.skipGap_skipGap]

theorem ignoresGap_require (pattern : List Char) : IgnoresGap (require pattern) := fun c => by
  simp only [require, c.skipGap_skipGap]

theorem ignoresGap_requireName : IgnoresGap requireName := fun c => by
  simp only [requireName, c.skipGap_skipGap]

theorem ignoresGap_strBody : IgnoresGap Form.strBody := fun c => by
  simp only [Form.strBody, c.skipGap_skipGap]

/-- A flag that is told after a gap: if it is set, reading goes on behind its token, and otherwise
nothing has been read. -/
def Flags (parser : Parser Bool) : Prop :=
  ∀ c : Cursor, (∃ d, (parser c.skipGap).outcome = .done true d ∧
      (parser c).outcome = .done true d) ∨
    ((parser c.skipGap).outcome = .done false c.skipGap ∧ (parser c).outcome = .done false c)

/-- A flag never fails. -/
theorem Flags.outcome_ne_failed {flag : Parser Bool} (flags : Flags flag) (c : Cursor)
    (fault : Fault) : (flag c).outcome ≠ .failed fault := by
  rcases flags c with ⟨d, -, here⟩ | ⟨-, here⟩ <;> (rw [here]; nofun)

/-- Where a flag is not set, nothing has been read. -/
theorem Flags.eq_of_not_set {flag : Parser Bool} (flags : Flags flag) {c d : Cursor}
    (notSet : (flag c).outcome = .done false d) : d = c := by
  rcases flags c with ⟨e, -, here⟩ | ⟨-, here⟩
  · rw [here] at notSet
    cases notSet
  · rw [here] at notSet
    cases notSet
    rfl

theorem flags_token (pattern : List Char) : Flags (token pattern) := by
  intro c
  simp only [token, c.skipGap_skipGap]
  split
  · exact .inl ⟨_, rfl, rfl⟩
  · exact .inr ⟨rfl, rfl⟩

theorem flags_lamHead : Flags Form.lamHead := by
  intro c
  rcases flags_token ['λ'] c with ⟨d, after, here⟩ | ⟨after, here⟩
  · exact .inl ⟨d, outcome_bind_eq_done.mpr ⟨_, _, after, rfl⟩,
      outcome_bind_eq_done.mpr ⟨_, _, here, rfl⟩⟩
  · -- the other spelling is looked for at the same two places
    rw [Form.lamHead, outcome_bind_of_done after, outcome_bind_of_done here]
    exact flags_token ['@'] c

theorem flags_closes (pattern : List Char) : Flags (closes (.token pattern)) := by
  intro c
  have unchanged (c : Cursor) : closes (.token pattern) c = token pattern c := by
    simp only [closes, Closing.token, token]
    cases c.skipGap.startsWith pattern <;> rfl
  rw [unchanged, unchanged]
  exact flags_token pattern c

/-! ## Combinators -/

theorem ignoresGap_bind {first : Parser α} (ignores : IgnoresGap first) (next : α → Parser β) :
    IgnoresGap (first >>= next) :=
  fun c => outcome_bind_congr (ignores c) fun _ _ _ => rfl

theorem ignoresGap_map {parser : Parser α} (ignores : IgnoresGap parser) (change : α → β) :
    IgnoresGap (change <$> parser) := by
  intro c
  have same := ignores c
  rw [map_apply, map_apply]
  revert same
  rcases parser c.skipGap with ⟨trace, outcome⟩
  rcases parser c with ⟨trace', outcome'⟩
  rintro rfl
  cases outcome <;> rfl

/-- After a flag it is enough that the gap is ignored where the flag is not set. -/
theorem ignoresGap_flag_bind {flag : Parser Bool} (flags : Flags flag) {next : Bool → Parser β}
    (ignores : IgnoresGap (next false)) : IgnoresGap (flag >>= next) := by
  intro c
  rcases flags c with ⟨d, after, here⟩ | ⟨after, here⟩
  · rw [outcome_bind_of_done after, outcome_bind_of_done here]
  · rw [outcome_bind_of_done after, outcome_bind_of_done here]
    exact ignores c

/-- A repetition up to a fixed text ignores the gap before it if its elements do. -/
theorem ignoresGap_manyUntilFrom {element : Nat → Parser α}
    (takes : ∀ number, TakesText (element number))
    (ignores : ∀ number, IgnoresGap (element number)) (number : Nat) :
    IgnoresGap (manyUntilFrom (.token pattern) element number) := by
  intro c
  rw [manyUntilFrom_apply takes, manyUntilFrom_apply takes]
  refine ignoresGap_flag_bind (flags_closes pattern) (fun c => ?_) c
  simp only [Bool.false_eq_true, if_false, readOn, c.skipGap_skipGap]
  split
  · rfl
  · exact ignoresGap_bind (ignores number) _ c

/-! ## Terms -/

/-- Every body ignores the gap before it. -/
theorem ignoresGap_body (term : Parser Term) (form : Form) : IgnoresGap (form.body term) := by
  cases form with
  | letIn | dup | op2 | chr => exact ignoresGap_bind (ignoresGap_require _) _
  | lam =>
      refine ignoresGap_flag_bind flags_lamHead ?_
      exact ignoresGap_bind (ignoresGap_fail _) _
  | ctr =>
      refine ignoresGap_flag_bind (flags_token _) ?_
      exact ignoresGap_bind ignoresGap_requireName _
  | app | lst => exact ignoresGap_map (ignoresGap_bind (ignoresGap_require _) _) _
  | num =>
      -- the place of a refused numeral is told after the gap
      intro c
      have atHere (c : Cursor) : (here c).outcome = .done c c := rfl
      refine (outcome_bind_of_done (atHere c.skipGap)).trans
        (Eq.trans ?_ (outcome_bind_of_done (atHere c)).symm)
      refine outcome_bind_congr (ignoresGap_requireName c) fun numeral d _ => ?_
      rw [c.skipGap_skipGap]
  | str => exact ignoresGap_strBody
  | var => exact ignoresGap_map ignoresGap_requireName _

/-- The parser of terms ignores the gap before it. -/
theorem ignoresGap_term : IgnoresGap term := by
  intro c
  rw [term_eq_body, term_eq_body, Cursor.rest_skipGap, dropGap_dropGap, c.skipGap_skipGap]
  cases Form.at? (dropGap c.rest) with
  | none => rfl
  | some form => exact ignoresGap_body term form c

end Parser

/-- A term is derived from a text if and only if it is derived from what is left after the gap. -/
theorem derives_dropGap_iff {text rest : List Char} {term : Term} :
    Derives (dropGap text) (.term term) rest ↔ Derives text (.term term) rest := by
  rw [← outcome_term_start_iff, ← outcome_term_start_iff, ← Cursor.skipGap_start,
    Parser.ignoresGap_term]

end Termbook
