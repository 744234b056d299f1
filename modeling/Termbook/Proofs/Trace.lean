import Termbook.Proofs.Order

/-! # Nothing is accepted twice

The indices of accepted forms rise in what the readers of terms, rules and books note, so there are
no more of them than the text has characters. In a book, each rule is noted when everything of it
has been noted and nothing yet of the rule after it. -/

namespace Termbook

open Termbook.Parser
open Cursor (start)

variable {α β : Type}

/-! ## What is noted in a trace -/

/-- The number of an event that notes a rule of a book. -/
def Event.ruleNumber? : Event → Option Nat
  | .accepted .. => none
  | .ruleRead number _ _ => some number

/-- The indices in a text where forms have been accepted, in the order in which they were noted. -/
def acceptedIndices (text : List Char) (trace : List Event) : List Nat :=
  (acceptedPlaces trace).map (·.index text.length)

/-- The numbers of the rules that have been read, in the order in which they were noted. -/
def ruleNumbers (trace : List Event) : List Nat :=
  trace.filterMap Event.ruleNumber?

@[simp] theorem ruleNumbers_ruleRead (number : Nat) (place : Cursor) (rule : Rule)
    (trace : List Event) :
    ruleNumbers (.ruleRead number place rule :: trace) = number :: ruleNumbers trace := rfl

@[simp] theorem ruleNumbers_append (before after : List Event) :
    ruleNumbers (before ++ after) = ruleNumbers before ++ ruleNumbers after :=
  List.filterMap_append

namespace Parser

/-! ## What the loop over the rules notes -/

/-- Changing the value leaves what has been noted. -/
theorem trace_map (change : α → β) (parser : Parser α) (c : Cursor) :
    ((change <$> parser) c).trace = (parser c).trace := by
  rw [map_apply]
  rcases parser c with ⟨trace, _ | _ | _⟩ <;> rfl

/-- A sequence that ends with a changed value leaves what has been noted. -/
theorem trace_bind_pure (change : α → β) (parser : Parser α) (c : Cursor) :
    ((do return change (← parser)) c).trace = (parser c).trace := by
  rw [bind_apply]
  rcases parser c with ⟨trace, _ | _ | _⟩
  · exact List.append_nil trace
  · rfl
  · rfl

/-- Where a rule stands, the loop over the rules notes what the rule notes, the rule, and what the
loop notes from there on. -/
theorem trace_rules_of_rule {number : Nat} {c d : Cursor} {read : Rule}
    (done : (rule c.skipGap).outcome = .done (some read) d) :
    (rules number c).trace = (rule c.skipGap).trace ++
      .ruleRead number c.skipGap read :: (rules (number + 1) d).trace := by
  have left : c.skipGap.rest ≠ [] := by
    have := remaining_lt_of_rule done
    rw [← List.length_pos_iff, ← c.skipGap.remaining_eq]
    omega
  rw [rules_apply, if_neg left, bind_apply, numberedRule_apply]
  revert done
  rcases rule c.skipGap with ⟨trace, outcome⟩
  rintro rfl
  have more := trace_bind_pure (read :: ·) (rules (number + 1)) d
  simp only [Reply.trace_after, List.append_assoc, more]
  rfl

/-- Where no rule stands, the loop over the rules notes at most what the parser of rules does. -/
theorem trace_rules_of_noRule {number : Nat} {c : Cursor}
    (noRule : ¬∃ read d, (rule c.skipGap).outcome = .done (some read) d) :
    (rules number c).trace = [] ∨ (rules number c).trace = (rule c.skipGap).trace := by
  rw [rules_apply]
  split
  · exact .inl rfl
  · right
    rw [bind_apply, numberedRule_apply]
    revert noRule
    rcases rule c.skipGap with ⟨trace, ⟨_ | read, d⟩ | fault | _⟩
    · exact fun _ => rfl
    · exact fun noRule => absurd ⟨read, d, rfl⟩ noRule
    · exact fun _ => rfl
    · exact fun _ => rfl

/-- A rule notes forms only. -/
theorem ruleNumber?_of_mem_rule {c : Cursor} {event : Event} (noted : event ∈ (rule c).trace) :
    event.ruleNumber? = none :=
  (inherited_events fun event => event.ruleNumber? = none).rule
    (fun _ _ _ _ member => List.mem_singleton.mp member ▸ rfl) c event noted

/-- A rule notes no number. -/
theorem ruleNumbers_rule (c : Cursor) : ruleNumbers (rule c).trace = [] :=
  List.filterMap_eq_nil_iff.mpr fun _ noted => ruleNumber?_of_mem_rule noted

/-- The rules are noted under consecutive numbers. -/
theorem exists_ruleNumbers_rules (number : Nat) (c : Cursor) :
    ∃ count, ruleNumbers (rules number c).trace = List.range' number count := by
  induction size : c.remaining using Nat.strongRecOn generalizing c number with
  | ind size ih =>
      by_cases stands : ∃ read d, (rule c.skipGap).outcome = .done (some read) d
      · obtain ⟨read, d, done⟩ := stands
        have less := remaining_lt_of_rule done
        have := c.remaining_skipGap_le
        obtain ⟨count, more⟩ := ih d.remaining (by omega) (number + 1) d rfl
        refine ⟨count + 1, ?_⟩
        rw [trace_rules_of_rule done, ruleNumbers_append, ruleNumbers_rule, ruleNumbers_ruleRead,
          more]
        rfl
      · refine ⟨0, ?_⟩
        rcases trace_rules_of_noRule stands with noted | noted
        · rw [noted]
          rfl
        · rw [noted, ruleNumbers_rule]
          rfl

/-- An event that does not occur in the front of a trace is the one behind the front, or comes
after it. -/
theorem eq_or_exists_of_split {front rest before after : List Event} {next event : Event}
    (absent : event ∉ front) (split : front ++ next :: rest = before ++ event :: after) :
    (before = front ∧ next = event ∧ rest = after) ∨
      ∃ between, before = front ++ next :: between ∧ rest = between ++ event :: after := by
  rcases List.append_eq_append_iff.mp split with ⟨between, rfl, same⟩ | ⟨between, rfl, same⟩
  · cases between with
    | nil =>
        obtain ⟨rfl, rfl⟩ := List.cons_eq_cons.mp same
        exact .inl ⟨List.append_nil front, rfl, rfl⟩
    | cons _ between =>
        obtain ⟨rfl, rfl⟩ := List.cons_eq_cons.mp same
        exact .inr ⟨between, rfl, rfl⟩
  · cases between with
    | nil =>
        obtain ⟨rfl, rfl⟩ := List.cons_eq_cons.mp same
        exact .inl ⟨(List.append_nil before).symm, rfl, rfl⟩
    | cons _ between =>
        obtain ⟨rfl, -⟩ := List.cons_eq_cons.mp same
        exact absurd (List.mem_append_right before List.mem_cons_self) absent

/-- Where the loop over the rules, begun with the number `first`, notes a rule: what has been noted
up to there, what is noted from there on, and where the rule ends. -/
structure RuleNoted (first : Nat) (c : Cursor) (before : List Event) (number : Nat)
    (place : Cursor) (read : Rule) (after : List Event) (d : Cursor) : Prop where
  /-- The rule is the one that stands at its place. -/
  done : (rule place).outcome = .done (some read) d
  /-- Its place is onward from where the loop began. -/
  onward : c.Onward place
  /-- What the rule itself has noted comes last, right after the rule before it. -/
  own : ∃ earlier, before = earlier ++ (rule place).trace ∧
    ∀ event ∈ earlier.getLast?, event.accepted? = none
  /-- What is noted next is what the loop notes from behind the rule on. -/
  next : after = (rules (number + 1) d).trace
  /-- Before it, the rules of the lower numbers have been noted. -/
  numbers : first ≤ number ∧ ruleNumbers before = List.range' first (number - first)
  /-- All forms that have been noted before it lie before its end. -/
  passed : ∀ other ∈ acceptedPlaces before, d.remaining < other.remaining

/-- The first rule that the loop notes. -/
theorem ruleNoted_first {first : Nat} {c d : Cursor} {read : Rule}
    (done : (rule c.skipGap).outcome = .done (some read) d) :
    RuleNoted first c (rule c.skipGap).trace first c.skipGap read (rules (first + 1) d).trace
      d where
  done := done
  onward := c.onward_skipGap
  own := ⟨[], rfl, nofun⟩
  next := rfl
  numbers := ⟨Nat.le_refl first, by simp [ruleNumbers_rule]⟩
  passed := (order_rule c.skipGap).2 read d done

/-- A rule that the loop notes after its first one. -/
theorem RuleNoted.later {first number : Nat} {c d e place : Cursor} {read read' : Rule}
    {between after : List Event} (done : (rule c.skipGap).outcome = .done (some read) d)
    (noted : RuleNoted (first + 1) d between number place read' after e) :
    RuleNoted first c ((rule c.skipGap).trace ++ .ruleRead first c.skipGap read :: between) number
      place read' after e where
  done := noted.done
  onward := c.onward_skipGap.trans ((forward_rule.onward done).trans noted.onward)
  own := by
    obtain ⟨earlier, rfl, last⟩ := noted.own
    refine ⟨(rule c.skipGap).trace ++ .ruleRead first c.skipGap read :: earlier, by simp, ?_⟩
    cases earlier with
    | nil => simp [Event.accepted?]
    | cons event earlier => simpa using last
  next := noted.next
  numbers := by
    obtain ⟨le, numbers⟩ := noted.numbers
    have steps : number - first = (number - (first + 1)) + 1 := by omega
    refine ⟨by omega, ?_⟩
    rw [ruleNumbers_append, ruleNumbers_rule, ruleNumbers_ruleRead, numbers, steps]
    rfl
  passed := by
    have behind : e.remaining ≤ d.remaining :=
      (noted.onward.trans (forward_rule.onward noted.done)).remaining_le
    intro other member
    rw [acceptedPlaces_append, acceptedPlaces_ruleRead] at member
    rcases List.mem_append.mp member with inFirst | inBetween
    · have := (order_rule c.skipGap).2 read d done other inFirst
      omega
    · exact noted.passed other inBetween

/-- Each rule that the loop notes stands between what it has noted itself and what is noted from
behind it on. The induction is on what is left to read: the rule is the first one that the loop
reads, or one that the loop notes when it goes on from behind the first one. -/
theorem exists_ruleNoted {first number : Nat} {c place : Cursor} {read : Rule}
    {before after : List Event}
    (split : (rules first c).trace = before ++ .ruleRead number place read :: after) :
    ∃ d, RuleNoted first c before number place read after d := by
  have absent (c : Cursor) : .ruleRead number place read ∉ (rule c).trace :=
    fun member => absurd (ruleNumber?_of_mem_rule member) nofun
  induction size : c.remaining using Nat.strongRecOn generalizing c first before with
  | ind size ih =>
      by_cases stands : ∃ read d, (rule c.skipGap).outcome = .done (some read) d
      · obtain ⟨read', d, done⟩ := stands
        rw [trace_rules_of_rule done] at split
        rcases eq_or_exists_of_split (absent _) split with
          ⟨rfl, same, rfl⟩ | ⟨between, rfl, further⟩
        · cases same
          exact ⟨d, ruleNoted_first done⟩
        · have less := remaining_lt_of_rule done
          have := c.remaining_skipGap_le
          obtain ⟨e, later⟩ := ih d.remaining (by omega) further rfl
          exact ⟨e, later.later done⟩
      · -- without a rule nothing is noted but forms
        rcases trace_rules_of_noRule stands with noted | noted
        · rw [noted] at split
          simp at split
        · rw [noted] at split
          exact absurd (by simp [split]) (absent c.skipGap)

end Parser

/-! ## Indices -/

variable {text : List Char}

namespace Cursor

/-- The index of a place in its text is how much of the text lies before it. -/
theorem Onward.index_eq {place : Cursor} (onward : (start text).Onward place) :
    place.index text.length = text.length - place.remaining := by
  rw [index, onward.beyond_eq, beyond_start, Nat.add_zero]

/-- No more is left at a place of a text than the text. -/
theorem Onward.remaining_le_length {place : Cursor} (onward : (start text).Onward place) :
    place.remaining ≤ text.length :=
  remaining_start text ▸ onward.remaining_le

end Cursor

/-- Traces that go forward from the start of a text have rising indices in the text, and so no more
of them than the text has characters. -/
theorem Ascends.indices {trace : List Event} (ascends : Ascends (start text) trace) :
    (acceptedIndices text trace).Pairwise (· < ·) ∧
      (∀ index ∈ acceptedIndices text trace, index < text.length) ∧
        (acceptedIndices text trace).length ≤ text.length := by
  have rising : (acceptedIndices text trace).Pairwise (· < ·) := by
    refine List.pairwise_map.mpr (ascends.ordered.imp_of_mem ?_)
    intro place other here there less
    rw [(ascends.within place here).1.index_eq, (ascends.within other there).1.index_eq]
    have := (ascends.within place here).1.remaining_le_length
    omega
  have inside : ∀ index ∈ acceptedIndices text trace, index < text.length := by
    intro index member
    obtain ⟨place, noted, rfl⟩ := List.mem_map.mp member
    obtain ⟨onward, left⟩ := ascends.within place noted
    have := onward.remaining_le_length
    rw [onward.index_eq]
    omega
  have distinct : (acceptedIndices text trace).Nodup := rising.imp Nat.ne_of_lt
  have amongAll : acceptedIndices text trace ⊆ List.range text.length := fun index member =>
    List.mem_range.mpr (inside index member)
  have few := (distinct.subperm amongAll).length_le
  rw [List.length_range] at few
  exact ⟨rising, inside, few⟩

/-! ## Reading with notes -/

/-- Nothing is accepted twice. In what the readers of terms, rules and books note, the indices of
the accepted forms rise and lie within the text, so there are no more of them than characters. The
rules of a book are noted under the numbers from zero on; each of them comes right after what it has
noted itself, all of it and of the rules before it lies before its end, and all that is noted later
lies behind. -/
theorem trace_ascends (text : List Char) :
    (∀ trace ∈ [(readTerm text).trace, (readRule text).trace, (readBook text).trace],
      (acceptedIndices text trace).Pairwise (· < ·) ∧
        (∀ index ∈ acceptedIndices text trace, index < text.length) ∧
          (acceptedIndices text trace).length ≤ text.length) ∧
    (∃ count, ruleNumbers (readBook text).trace = List.range count) ∧
    ∀ before number place read after,
      (readBook text).trace = before ++ .ruleRead number place read :: after →
        ruleNumbers before = List.range number ∧
        ∃ d earlier, (rule place).outcome = .done (some read) d ∧
          before = earlier ++ (rule place).trace ∧
          (∀ event ∈ earlier.getLast?, event.accepted? = none) ∧
          (∀ index ∈ acceptedIndices text before, index < d.index text.length) ∧
          (∀ index ∈ acceptedIndices text after, d.index text.length ≤ index) ∧
          after = (rules (number + 1) d).trace := by
  have loop : (readBook text).trace = (rules 0 (start text)).trace := trace_map _ _ _
  refine ⟨fun trace member => ?_, ?_, fun before number place read after split => ?_⟩
  · simp only [List.mem_cons, List.not_mem_nil, or_false] at member
    rcases member with rfl | rfl | rfl
    · exact (orderly_term (start text)).ascends.indices
    · exact (order_rule (start text)).1.indices
    · exact (orderly_book (start text)).ascends.indices
  · rw [loop]
    obtain ⟨count, numbers⟩ := exists_ruleNumbers_rules 0 (start text)
    exact ⟨count, numbers.trans List.range_eq_range'.symm⟩
  · rw [loop] at split
    obtain ⟨d, noted⟩ := exists_ruleNoted split
    obtain ⟨earlier, shape, last⟩ := noted.own
    have onward : (start text).Onward d := noted.onward.trans (forward_rule.onward noted.done)
    refine ⟨noted.numbers.2.trans List.range_eq_range'.symm, d, earlier, noted.done, shape, last,
      fun index member => ?_, fun index member => ?_, noted.next⟩
    · obtain ⟨other, here, rfl⟩ := List.mem_map.mp member
      have inWhole : other ∈ acceptedPlaces (rules 0 (start text)).trace := by
        rw [split, acceptedPlaces_append]
        exact List.mem_append_left _ here
      have fromStart := ((orderly_rules 0 (start text)).ascends.within other inWhole).1
      have short := fromStart.remaining_le_length
      have := noted.passed other here
      rw [fromStart.index_eq, onward.index_eq]
      omega
    · obtain ⟨other, here, rfl⟩ := List.mem_map.mp member
      rw [noted.next] at here
      have further := ((orderly_rules (number + 1) d).ascends.within other here).1
      have := further.remaining_le
      rw [onward.index_eq, (onward.trans further).index_eq]
      omega

/-- In a book of two rules the second one is noted under the number one, after the first. -/
theorem trace_ascends_two :
    ∃ before place after,
      (readBook ['a', '=', 'b', ' ', 'c', '=', 'd']).trace =
        before ++ .ruleRead 1 place ⟨.var "c", .var "d"⟩ :: after ∧
      ruleNumbers before = [0] ∧
      ∃ d earlier, (rule place).outcome = .done (some ⟨.var "c", .var "d"⟩) d ∧
        before = earlier ++ (rule place).trace := by
  -- both rules stand right where the loop looks for them, but for a space before the second one
  have first : (rule (start ['a', '=', 'b', ' ', 'c', '=', 'd']).skipGap).outcome =
      .done (some ⟨.var "a", .var "b"⟩) (start [' ', 'c', '=', 'd']) := by
    change (rule (start ['a', '=', 'b', ' ', 'c', '=', 'd'])).outcome = _
    refine outcome_rule_eq_some.mpr ⟨start ['=', 'b', ' ', 'c', '=', 'd'],
      start ['b', ' ', 'c', '=', 'd'], ?_, rfl, ?_⟩
    · exact outcome_term_start_iff.mpr
        (.var ⟨by decide, endsName_cons rfl, .refl _⟩ rfl (by decide) (by decide))
    · exact outcome_term_start_iff.mpr
        (.var ⟨by decide, endsName_cons rfl, .refl _⟩ rfl (by decide) (by decide))
  have second : (rule (start [' ', 'c', '=', 'd']).skipGap).outcome =
      .done (some ⟨.var "c", .var "d"⟩) (start []) := by
    change (rule (start ['c', '=', 'd'])).outcome = _
    refine outcome_rule_eq_some.mpr ⟨start ['=', 'd'], start ['d'], ?_, rfl, ?_⟩
    · exact outcome_term_start_iff.mpr
        (.var ⟨by decide, endsName_cons rfl, .refl _⟩ rfl (by decide) (by decide))
    · exact outcome_term_start_iff.mpr
        (.var ⟨by decide, endsName_nil, .refl _⟩ rfl (by decide) (by decide))
  have split := (trace_map Book.mk (rules 0) (start ['a', '=', 'b', ' ', 'c', '=', 'd'])).trans
    (trace_rules_of_rule first)
  rw [trace_rules_of_rule second, ← List.cons_append, ← List.append_assoc] at split
  obtain ⟨numbers, d, earlier, done, shape, -⟩ :=
    (trace_ascends ['a', '=', 'b', ' ', 'c', '=', 'd']).2.2 _ _ _ _ _ split
  exact ⟨_, _, _, split, numbers, d, earlier, done, shape⟩

end Termbook
