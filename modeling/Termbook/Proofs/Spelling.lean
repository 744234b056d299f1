import Termbook.Proofs.RoundTrip

/-! # Every well-named term can be written

The printed text of a term does not always read back, because a variable called like a keyword may
have a space after it. A spelling that puts every variable in brackets of its own avoids that, and
as every spelling ends with a bracket, it is read back before any text at all. So the terms that can
be read are exactly the well-named ones. -/

namespace Termbook

open Termbook.Parser
open Cursor (start)

namespace Term

mutual

/-- A text that spells a term out, with every variable and every number in brackets. -/
def spelling : Term → List Char
  | var name => '(' :: name.toList ++ [')']
  | num value => '(' :: (toString value.toNat).toList ++ [')']
  | dup first second expr body =>
      Form.dupMark ++ first.toList ++ ' ' :: second.toList ++ '=' :: spelling expr ++
        ';' :: spelling body
  | letIn name expr body =>
      Form.letMark ++ name.toList ++ '=' :: spelling expr ++ ';' :: spelling body
  | lam name body => '@' :: name.toList ++ ' ' :: spelling body
  | app func argm => '(' :: spelling func ++ spelling argm ++ [')']
  | op2 oper left right =>
      '(' :: oper.symbol.toList ++ ' ' :: spelling left ++ spelling right ++ [')']
  | ctr name args => '(' :: name.toList ++ spellings args ++ [')']

/-- The spellings of terms, each with a space before it. -/
def spellings : List Term → List Char
  | [] => []
  | term :: rest => ' ' :: spelling term ++ spellings rest

end

variable {term : Term} {rest : List Char}

/-- A spelling begins with a solid character that starts neither a constructor nor an operator. -/
theorem startsArguments_spelling (term : Term) (rest : List Char) :
    StartsArguments (term.spelling ++ rest) := by
  cases term <;>
    exact startsArguments_of_after (.refl _) rfl rfl (by decide)

/-- A term that is derived from its spelling before any text. -/
def Spelt (term : Term) : Prop :=
  ∀ rest, Derives (term.spelling ++ rest) (.term term) rest

/-- Terms that are spelt one by one are spelt in a row. -/
theorem derives_spellings {terms : List Term} (spelt : ∀ term ∈ terms, Spelt term)
    (rest : List Char) : Derives (spellings terms ++ rest) (.terms terms) rest := by
  induction terms with
  | nil => exact .noTerms
  | cons term terms ih =>
      have first := spelt term List.mem_cons_self (spellings terms ++ rest)
      have others := ih fun term member => spelt term (List.mem_cons_of_mem _ member)
      rw [spellings, List.append_assoc]
      exact .moreTerms (first.of_after (.space _)) others

/-- A legible term is derived from its layout in brackets, before any text. -/
theorem Legible.derives_bracketed (legible : term.Legible false) (named : term.WellNamed)
    (rest : List Char) : Derives ('(' :: (term.plain.toList ++ ')' :: rest)) (.term term) rest := by
  have inner := legible.restored named (')' :: rest) (endsName_cons rfl) (by simp)
  have alone : Derives (term.plain.toList ++ ')' :: rest) (.terms [term]) (')' :: rest) :=
    .moreTerms inner .noTerms
  have bracketed := Derives.app (.refl _) (startsArguments_plain_append _ named) alone (.refl _)
  exact bracketed

/-- Every well-named term is spelt. -/
theorem WellNamed.spelt (named : term.WellNamed) : Spelt term := by
  induction named with
  | @var name named =>
      intro rest
      have bracketed := Legible.derives_bracketed (.var nofun) (.var named) rest
      rw [plain] at bracketed
      simpa [spelling] using bracketed
  | @num value =>
      intro rest
      have legible : (Term.num value).Legible false := .num
      have bracketed := legible.derives_bracketed .num rest
      rw [plain] at bracketed
      simpa [spelling] using bracketed
  | @dup first second expr body binder binder' _ _ value scope =>
      intro rest
      have derived := Derives.dup (.refl _) ⟨binder, endsName_cons rfl, .refl _⟩
        ⟨binder', endsName_cons rfl, .space _⟩ (.refl _) (value _) (.refl _) (scope rest)
      simpa [spelling] using derived
  | @letIn name expr body binder _ _ value scope =>
      intro rest
      have derived := Derives.letIn (.refl _) ⟨binder, endsName_cons rfl, .refl _⟩ (.refl _)
        (value _) (.refl _) (scope rest)
      simpa [spelling] using derived
  | @lam name body binder _ scope =>
      intro rest
      have derived := Derives.lam (.inr rfl) (.refl _) ⟨binder, endsName_cons rfl, .refl _⟩
        ((scope rest).of_after (.space _))
      simpa [spelling] using derived
  | @app func argm _ _ function argument =>
      intro rest
      have row := Derives.moreTerms (function _) (.moreTerms (argument (')' :: rest)) .noTerms)
      have derived := Derives.app (.refl _) (startsArguments_spelling func _) row (.refl _)
      simpa [spelling, applyTo] using derived
  | @ctr name args named _ arguments =>
      intro rest
      have ends : EndsName (spellings args ++ ')' :: rest) := by
        cases args <;> exact endsName_cons rfl
      have derived := Derives.ctr (.refl _) ⟨named.1, ends, .refl _⟩ named.2
        (derives_spellings arguments _) (.refl (')' :: rest))
      simpa [spelling] using derived
  | @op2 oper left right _ _ first second =>
      intro rest
      have derived := Derives.op2 (.refl _) (oper.symbol_before (by decide) _)
        ((first _).of_after (.space _)) (second (')' :: rest)) (.refl _)
      simpa [spelling] using derived

end Term

/-- The terms that are read from some text are exactly the well-named ones: variables are names that
start as variables do, binders are names, and constructors are names with a capital letter first. -/
theorem exists_text_iff_wellNamed (term : Term) :
    (∃ text d, (readTerm text).outcome = .done term d) ↔ term.WellNamed := by
  constructor
  · rintro ⟨text, d, read⟩
    obtain ⟨rest, -, derivation⟩ := exists_derives_of_done read
    exact derivation.wellNamed
  · intro named
    have derivation := named.spelt []
    rw [List.append_nil] at derivation
    exact ⟨term.spelling, start [], outcome_term_start_iff.mpr derivation⟩

end Termbook
