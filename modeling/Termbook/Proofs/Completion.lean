import Termbook.Proofs.Portable

/-! # Completing what has been read

Where a reader stops at a fault, it has read a viable part: something may be written there so that
the whole is read. This is followed through the parsers: what a phrase has left unread when its
reader fails is replaced by a newline and the shortest text that completes the phrase, and the parts
that were read before stay read. -/

namespace Termbook

open Termbook.Parser
open Cursor (start)

variable {α β : Type} {text mid rest left : List Char} {P Q R : Reads}

/-! ## Texts that go on -/

/-- `GoesOn rest rest'`: `rest'` goes on like `rest` does, or with a newline. -/
def GoesOn (rest rest' : List Char) : Prop :=
  rest'.head? = rest.head? ∨ rest'.head? = some '\n'

/-- A newline ends names and is no space. -/
theorem GoesOn.replaces {rest' : List Char} (goesOn : GoesOn rest rest') :
    Replaces rest rest' := by
  rcases goesOn with same | newline
  · exact .inl same
  · refine .inr ⟨fun c member => ?_, by simp [newline]⟩
    rw [newline] at member
    cases member
    rfl

/-- After something of its own, a text goes on the same way. -/
theorem goesOn_append {kept : List Char} (nonempty : kept ≠ []) (rest' : List Char) :
    GoesOn (kept ++ rest) (kept ++ rest') := by
  cases kept with
  | nil => exact absurd rfl nonempty
  | cons c kept => exact .inl rfl

/-! ## Phrases that can be written down -/

/-- A kind of phrase that can be written down anywhere, before a newline. -/
class Fillable (reads : Reads) : Prop where
  /-- The same filling does after any gap. -/
  exists_filling : ∃ filling, ∀ text tail, After text (filling ++ '\n' :: tail) →
    reads text ('\n' :: tail)

instance (pattern : List Char) : Fillable (Stands pattern) :=
  ⟨pattern, fun _ _ after => after⟩

/-- One phrase can be written down after another, with a newline between them. -/
instance [first : Fillable P] [second : Fillable Q] : Fillable (Relation.Comp P Q) := by
  obtain ⟨filling, reads⟩ := first.exists_filling
  obtain ⟨filling', reads'⟩ := second.exists_filling
  refine ⟨filling ++ '\n' :: filling', fun text tail after => ?_⟩
  rw [List.append_assoc] at after
  exact ⟨_, reads _ _ after, reads' _ _ ⟨['\n'], .blank isBlank_newline .nil, rfl⟩⟩

/-- A name that passes a test stands after a gap. -/
def NameAt (test : String → Prop) : Reads := fun text rest =>
  ∃ name, test name ∧ Word text name rest

/-- Any name stands after a gap, as a binder does. -/
abbrev BinderAt : Reads :=
  NameAt fun _ => True

/-- The names that start with a capital letter. -/
abbrev IsCapital (name : String) : Prop :=
  Form.headIs Char.isUpper name.toList = true

/-- An operator stands after a gap. -/
def SymbolAt : Reads := fun text rest =>
  ∃ oper, Symbol text oper rest

/-- A term stands there. -/
def TermAt : Reads := fun text rest =>
  ∃ term, Derives text (.term term) rest

theorem fillable_nameAt {test : String → Prop} {name : String} (isName : IsName name)
    (passes : test name) : Fillable (NameAt test) :=
  ⟨name.toList, fun _ _ after => ⟨name, passes, isName, endsName_cons rfl, after⟩⟩

instance : Fillable BinderAt :=
  fillable_nameAt (by decide : IsName "x") trivial

instance : Fillable (NameAt IsCapital) :=
  fillable_nameAt (by decide : IsName "X") rfl

instance : Fillable SymbolAt := by
  refine ⟨Oper.add.symbol.toList, fun text tail after => ⟨.add, after, ?_⟩⟩
  exact (Oper.add.symbol_before (by decide) tail).2

instance : Fillable TermAt :=
  ⟨['(', ')'], fun _ _ after => ⟨_, .unit after (.refl _)⟩⟩

/-! ## Parts that can be completed -/

/-- What stands in `text` before `left` can be completed to a phrase, with a newline after it. -/
def Completable (reads : Reads) (text left : List Char) : Prop :=
  ∃ kept more, text = kept ++ left ∧ ∀ tail,
    GoesOn text (kept ++ (more ++ '\n' :: tail)) ∧
      reads (kept ++ (more ++ '\n' :: tail)) ('\n' :: tail)

/-- What stands from `text` up to `mid` still stands there however the text goes on after it. If it
reaches the end, something that closes it comes first. -/
def Resumable (reads : Reads) (text mid : List Char) : Prop :=
  ∃ kept closing, text = kept ++ mid ∧ kept ≠ [] ∧ (mid ≠ [] → closing = []) ∧
    ∀ mid', GoesOn mid mid' → reads (kept ++ (closing ++ mid')) mid'

theorem Completable.imp (completable : Completable P text left)
    (imp : ∀ text rest, P text rest → Q text rest) : Completable Q text left := by
  obtain ⟨kept, more, split, completed⟩ := completable
  exact ⟨kept, more, split, fun tail => ⟨(completed tail).1, imp _ _ (completed tail).2⟩⟩

/-- Whatever can be written down completes the gap before it, even one that ends with a comment. -/
theorem completable_dropGap [fillable : Fillable P] (text : List Char) :
    Completable P text (dropGap text) := by
  obtain ⟨filling, reads⟩ := fillable.exists_filling
  obtain ⟨gap, split, isGap⟩ := exists_gap_newline text
  refine ⟨gap, '\n' :: filling, split, fun tail => ⟨?_, reads _ _ ⟨_, isGap, by simp⟩⟩⟩
  cases gap with
  | nil => exact .inr rfl
  | cons c gap =>
      rw [split]
      exact .inl rfl

/-- A completed phrase can be followed by another one. -/
theorem Completable.comp [second : Fillable Q] (first : Completable P text left) :
    Completable (Relation.Comp P Q) text left := by
  obtain ⟨kept, more, split, completed⟩ := first
  obtain ⟨filling, reads⟩ := second.exists_filling
  refine ⟨kept, more ++ '\n' :: filling, split, fun tail => ?_⟩
  obtain ⟨goesOn, read⟩ := completed (filling ++ '\n' :: tail)
  rw [List.append_assoc]
  exact ⟨goesOn, _, read, reads _ _ ⟨['\n'], .blank isBlank_newline .nil, rfl⟩⟩

/-- A part that is read stays read when what follows it is completed. -/
theorem Resumable.completable (first : Resumable P text mid) (second : Completable Q mid left) :
    Completable (Relation.Comp P Q) text left := by
  obtain ⟨kept, closing, rfl, nonempty, closed, read⟩ := first
  obtain ⟨kept', more, rfl, completed⟩ := second
  cases kept' with
  | nil =>
      -- the second part is written down anew, so the first one may have to be closed before it
      refine ⟨kept, closing ++ more, rfl, fun tail => ⟨goesOn_append nonempty _, ?_⟩⟩
      obtain ⟨goesOn, read'⟩ := completed tail
      rw [List.append_assoc]
      exact ⟨_, read _ goesOn, read'⟩
  | cons c kept' =>
      obtain rfl := closed nofun
      refine ⟨kept ++ c :: kept', more, (List.append_assoc ..).symm, fun tail => ?_⟩
      obtain ⟨goesOn, read'⟩ := completed tail
      rw [List.append_assoc]
      exact ⟨goesOn_append nonempty _, _, read _ goesOn, read'⟩

/-- What stands up to `mid` takes text. -/
theorem Resumable.length_lt (resumable : Resumable P text mid) : mid.length < text.length := by
  obtain ⟨kept, closing, rfl, nonempty, -⟩ := resumable
  have := List.length_pos_iff.mpr nonempty
  rw [List.length_append]
  omega

/-- What is portable is resumable if it takes text. -/
theorem Portable.resumable (portable : Portable P text mid) (takes : mid.length < text.length) :
    Resumable P text mid := by
  obtain ⟨used, closing, rfl, closed, elsewhere⟩ := portable
  refine ⟨used, closing, rfl, ?_, closed, fun mid' goesOn => (elsewhere _ goesOn.replaces).2⟩
  rintro rfl
  exact Nat.lt_irrefl _ takes

/-- Completed arguments start as the arguments do, if reading has come beyond where they start. -/
theorem Completable.startsArguments (completable : Completable P text left)
    (arguments : StartsArguments text) (reaches : left.length < (dropGap text).length) :
    Completable (fun text rest => StartsArguments text ∧ P text rest) text left := by
  obtain ⟨kept, more, rfl, completed⟩ := completable
  refine ⟨kept, more, rfl, fun tail => ⟨(completed tail).1, ?_, (completed tail).2⟩⟩
  exact arguments.of_append reaches _

/-- A pattern after a gap is resumable. -/
theorem resumable_stands (pattern : List Char) (nonempty : pattern ≠ [])
    (stands : Stands pattern text rest) : Resumable (Stands pattern) text rest := by
  refine (portable_stands _ stands).resumable ?_
  have := stands.length_le
  have := List.length_pos_iff.mpr nonempty
  rw [List.length_append] at *
  omega

theorem resumable_word {name : String} {test : String → Prop} (passes : test name)
    (word : Word text name rest) : Resumable (NameAt test) text rest :=
  ((portable_word word).imp fun _ _ word => ⟨name, passes, word⟩).resumable word.length_lt

/-- An operator stays the same before a newline, which goes on with no symbol. -/
theorem resumable_symbol {oper : Oper} (symbol : Symbol text oper rest) :
    Resumable SymbolAt text rest := by
  have split := symbol
  obtain ⟨⟨gap, isGap, rfl⟩, -⟩ := split
  rw [← List.append_assoc] at symbol ⊢
  refine ⟨_, [], rfl, ?_, fun _ => rfl, fun mid' goesOn => ⟨oper, ?_⟩⟩
  · obtain ⟨c, others, shape, -⟩ := oper.exists_symbol_eq_cons
    simp [shape]
  · rcases goesOn with same | newline
    · exact symbol.of_head? same
    · obtain ⟨tail, rfl⟩ := List.head?_eq_some_iff.mp newline
      refine ⟨⟨gap, isGap, List.append_assoc ..⟩, ?_⟩
      exact (oper.symbol_before (by decide) tail).2

theorem resumable_term {term : Term} (derivation : Derives text (.term term) rest) :
    Resumable TermAt text rest :=
  (derivation.portable.imp fun _ _ derivation => ⟨term, derivation⟩).resumable derivation.length_lt

/-! ## Parsers -/

namespace Parser

/-- Wherever the parser fails, what it has left unread can be replaced so that the whole is a
phrase. -/
def Completes (parser : Parser α) (reads : Reads) (text : List Char) : Prop :=
  ∀ fault, (parser (start text)).outcome = .failed fault →
    ∃ left, fault.place = start left ∧ Completable reads text left

/-- Wherever the parser is done, it has read a phrase that stays read. -/
def Resumes (parser : Parser α) (reads : Reads) (text : List Char) : Prop :=
  ∀ value d, (parser (start text)).outcome = .done value d →
    ∃ mid, d = start mid ∧ Resumable reads text mid

variable {parser first : Parser α} {next : α → Parser β}

theorem Completes.imp (completes : Completes parser P text)
    (imp : ∀ text rest, P text rest → Q text rest) : Completes parser Q text := by
  intro fault failed
  obtain ⟨left, place, completable⟩ := completes fault failed
  exact ⟨left, place, completable.imp imp⟩

/-- A fault that is told after the gap leaves everything but the gap unread. -/
theorem exists_completable_of_gap [Fillable P] {fault : Fault}
    (atGap : fault.place = (start text).skipGap) :
    ∃ left, fault.place = start left ∧ Completable P text left :=
  ⟨dropGap text, atGap.trans (Cursor.skipGap_start text), completable_dropGap text⟩

/-- A parser that fails only at the gap before it completes whatever can be written down. -/
theorem completes_of_gap [Fillable P]
    (atGap : ∀ fault, (parser (start text)).outcome = .failed fault →
      fault.place = (start text).skipGap) : Completes parser P text := fun fault failed =>
  exists_completable_of_gap (atGap fault failed)

/-- What has been read before a parser stays read when the parser fails. -/
theorem Completes.resume (completes : Completes parser Q mid) (resumable : Resumable P text mid)
    {fault : Fault} (failed : (parser (start mid)).outcome = .failed fault) :
    ∃ left, fault.place = start left ∧ Completable (Relation.Comp P Q) text left := by
  obtain ⟨left, place, completable⟩ := completes fault failed
  exact ⟨left, place, resumable.completable completable⟩

/-- A sequence completes its phrase if its parts do, one after the other. -/
theorem completes_bind [Fillable Q] (completes : Completes first P text)
    (resumes : Resumes first P text)
    (onward : ∀ value mid, mid.length < text.length → Completes (next value) Q mid) :
    Completes (first >>= next) (Relation.Comp P Q) text := by
  intro fault failed
  rcases outcome_bind_eq_failed.mp failed with failed | ⟨value, e, done, failed⟩
  · obtain ⟨left, place, completable⟩ := completes fault failed
    exact ⟨left, place, completable.comp⟩
  · obtain ⟨mid, rfl, resumable⟩ := resumes value e done
    exact (onward value mid resumable.length_lt).resume resumable failed

theorem completes_map (completes : Completes parser P text) (change : α → β) :
    Completes (change <$> parser) P text := fun fault failed =>
  completes fault (outcome_map_eq_failed.mp failed)

/-- Answering a changed value fails nowhere else. -/
theorem completes_bind_pure (completes : Completes parser P text) (change : α → β) :
    Completes (do return change (← parser)) P text := by
  intro fault failed
  rcases outcome_bind_eq_failed.mp failed with failed | ⟨_, _, -, failed⟩
  · exact completes fault failed
  · contradiction

/-! ## Tokens -/

theorem completes_require [Fillable P] (pattern : List Char) :
    Completes (require pattern) P text := by
  refine completes_of_gap fun fault failed => ?_
  simp only [require] at failed
  split at failed
  · contradiction
  · cases failed
    rfl

/-- A sequence that requires a text completes what follows that text. -/
theorem completes_require_bind {pattern : List Char} {next : Unit → Parser α} [Fillable Q]
    (significant : ∀ tail, Significant (pattern ++ tail))
    (onward : ∀ mid : List Char, mid.length < text.length → Completes (next ()) Q mid) :
    Completes (require pattern >>= next) (Relation.Comp (Stands pattern) Q) text := by
  refine completes_bind (completes_require pattern) (fun _ d done => ?_) fun _ => onward
  obtain ⟨mid, stands, rfl⟩ := (outcome_require_start significant).mp done
  have nonempty : pattern ≠ [] := by
    rintro rfl
    exact significant []
  exact ⟨mid, rfl, resumable_stands pattern nonempty stands⟩

/-- Where no name stands, it is missed after the gap. -/
theorem place_of_requireName_failed {c : Cursor} {fault : Fault}
    (failed : (requireName c).outcome = .failed fault) : fault.place = c.skipGap := by
  simp only [requireName] at failed
  split at failed
  · cases failed
    rfl
  · contradiction

theorem completes_requireName [Fillable P] : Completes requireName P text :=
  completes_of_gap fun _ failed => place_of_requireName_failed failed

/-- A sequence that requires a name completes what follows that name. -/
theorem completes_requireName_bind {test : String → Prop} {next : String → Parser α} [Fillable Q]
    [Fillable (NameAt test)] (passes : ∀ name rest, Word text name rest → test name)
    (onward : ∀ name (mid : List Char), mid.length < text.length → Completes (next name) Q mid) :
    Completes (requireName >>= next) (Relation.Comp (NameAt test) Q) text := by
  refine completes_bind completes_requireName (fun name d done => ?_) onward
  obtain ⟨mid, word, rfl⟩ := outcome_requireName_start.mp done
  exact ⟨mid, rfl, resumable_word (passes name mid word) word⟩

/-- A sequence that reads an operator completes what follows its symbol. -/
theorem completes_operReader_bind {next : Oper → Parser α} [Fillable Q]
    (onward : ∀ oper (mid : List Char), mid.length < text.length → Completes (next oper) Q mid) :
    Completes (Form.operReader >>= next) (Relation.Comp SymbolAt Q) text := by
  refine completes_bind (completes_of_gap fun fault failed => ?_) (fun oper d done => ?_) onward
  · -- no choice between operators fails, so what is missed is any of them
    rw [Form.operReader, grammar, choice_operParser_start] at failed
    revert failed
    cases Oper.all.find? (·.symbol.toList.isPrefixOf (dropGap text)) with
    | none =>
        intro failed
        cases failed
        rfl
    | some oper =>
        intro failed
        cases failed
  · obtain ⟨mid, symbol, rfl⟩ := outcome_operReader_start.mp done
    exact ⟨mid, rfl, resumable_symbol symbol⟩

theorem resumes_term : Resumes term TermAt text := by
  intro value d done
  obtain ⟨mid, rfl, derivation⟩ := exists_derives_of_done done
  exact ⟨mid, rfl, resumable_term derivation⟩

/-- A sequence that reads a term completes what follows that term. -/
theorem completes_term_bind {next : Term → Parser α} [Fillable Q]
    (completes : Completes term TermAt text)
    (onward : ∀ value (mid : List Char), mid.length < text.length → Completes (next value) Q mid) :
    Completes (term >>= next) (Relation.Comp TermAt Q) text :=
  completes_bind completes resumes_term onward

/-! ## Repetitions -/

/-- A repetition completes a row of phrases if its elements complete the phrases. -/
theorem completes_manyUntilFrom {closing : Closing} {element : Nat → Parser α} [Fillable R]
    (closes_ne : ∀ c fault, (closes closing c).outcome ≠ .failed fault)
    (takes : ∀ number, TakesText (element number))
    (row : ∀ text rest, Relation.Comp P R text rest → R text rest)
    (completes : ∀ number (text' : List Char), text'.length ≤ text.length →
      Completes (element number) P text')
    (resumes : ∀ number (text' : List Char), Resumes (element number) P text') (number : Nat) :
    Completes (manyUntilFrom closing element number) R text := by
  induction size : text.length using Nat.strongRecOn generalizing text number with
  | ind size ih =>
      intro fault failed
      rw [manyUntilFrom_apply takes, round] at failed
      rcases outcome_bind_eq_failed.mp failed with failed | ⟨closed, d, atClosing, failed⟩
      · exact absurd failed (closes_ne _ fault)
      · cases closed with
        | true => contradiction
        | false =>
            cases eq_of_outcome_closes atClosing
            simp only [Bool.false_eq_true, if_false, readOn] at failed
            split at failed
            · -- the text ends where an element or the closing is missing
              cases failed
              exact exists_completable_of_gap rfl
            · have others (value : α) (mid : List Char) (less : mid.length < text.length) :
                  Completes (do return value :: (← manyUntilFrom closing element (number + 1))) R
                    mid := by
                refine completes_bind_pure (ih _ (size ▸ less) ?_ _ rfl) (value :: ·)
                exact fun number text' le => completes number text' (by omega)
              have whole := completes_bind (completes number text (Nat.le_refl _))
                (resumes number text) others
              exact whole.imp row fault failed

end Parser

end Termbook
