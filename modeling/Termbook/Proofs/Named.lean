import Termbook.Proofs.Grammar
import Termbook.Proofs.Sugar

/-! # Well-named terms

A term can be written down only if its names can: binders are names, constructors are names with a
capital letter first, and variables are names that start as variables do. Whatever the grammar
derives is named like that. Which of the variable names are fit for printing is a stricter question,
so the condition on variables is a parameter. -/

namespace Termbook

/-- A name with which the grammar starts a variable. -/
def IsVarName (name : String) : Prop :=
  IsName name ∧ Form.headIs Form.startsVar name.toList = true

/-- A name with which the grammar starts a constructor. -/
def IsCtrName (name : String) : Prop :=
  IsName name ∧ Form.headIs Char.isUpper name.toList = true

instance (name : String) : Decidable (IsVarName name) :=
  inferInstanceAs (Decidable (_ ∧ _))

instance (name : String) : Decidable (IsCtrName name) :=
  inferInstanceAs (Decidable (_ ∧ _))

namespace Term

/-- All names in a term are names of their kind, and those of variables pass a condition. -/
inductive Named (isVar : String → Prop) : Term → Prop where
  /-- A variable that passes the condition. -/
  | var {name : String} (named : isVar name) : Named isVar (.var name)
  /-- A duplication with two names. -/
  | dup {first second : String} {expr body : Term} (binder : IsName first)
      (binder' : IsName second) (value : Named isVar expr) (scope : Named isVar body) :
      Named isVar (.dup first second expr body)
  /-- A local definition with a name. -/
  | letIn {name : String} {expr body : Term} (binder : IsName name) (value : Named isVar expr)
      (scope : Named isVar body) : Named isVar (.letIn name expr body)
  /-- An abstraction with a name. -/
  | lam {name : String} {body : Term} (binder : IsName name) (scope : Named isVar body) :
      Named isVar (.lam name body)
  /-- An application. -/
  | app {func argm : Term} (function : Named isVar func) (argument : Named isVar argm) :
      Named isVar (.app func argm)
  /-- A constructor with a name of its own kind. -/
  | ctr {name : String} {args : List Term} (named : IsCtrName name)
      (arguments : ∀ arg ∈ args, Named isVar arg) : Named isVar (.ctr name args)
  /-- A number. -/
  | num {value : UInt64} : Named isVar (.num value)
  /-- A binary operation. -/
  | op2 {oper : Oper} {left right : Term} (first : Named isVar left) (second : Named isVar right) :
      Named isVar (.op2 oper left right)

/-- A term whose names are those that the grammar knows. -/
def WellNamed (term : Term) : Prop :=
  term.Named IsVarName

/-- A well-named term in which no variable is called like a keyword. -/
def Printable (term : Term) : Prop :=
  term.Named fun name => IsVarName name ∧ name ≠ "let" ∧ name ≠ "dup"

variable {isVar : String → Prop} {term part : Term}

/-- A weaker condition on variables holds as well. -/
theorem Named.mono {isVar' : String → Prop} (weaker : ∀ name, isVar name → isVar' name)
    (named : term.Named isVar) : term.Named isVar' := by
  induction named with
  | var named => exact .var (weaker _ named)
  | dup binder binder' _ _ value scope => exact .dup binder binder' value scope
  | letIn binder _ _ value scope => exact .letIn binder value scope
  | lam binder _ scope => exact .lam binder scope
  | app _ _ function argument => exact .app function argument
  | ctr named _ arguments => exact .ctr named arguments
  | num => exact .num
  | op2 _ _ first second => exact .op2 first second

/-- A printable term is well named. -/
theorem Printable.wellNamed (printable : term.Printable) : term.WellNamed :=
  printable.mono fun _ => And.left

/-! ## Spines, lists and texts -/

/-- What comes onto a spine is named as the term, if it was not there before. -/
theorem Named.of_mem_spineOnto {rest : List Term} (named : term.Named isVar)
    (others : ∀ part ∈ rest, part.Named isVar) (member : part ∈ term.spineOnto rest) :
    part.Named isVar := by
  fun_induction spineOnto term rest with
  | case1 rest func argm ih =>
      cases named with
      | app function argument =>
          refine ih function (fun part member => ?_) member
          rcases List.mem_cons.mp member with rfl | member
          · exact argument
          · exact others part member
  | case2 head rest =>
      rcases List.mem_cons.mp member with rfl | member
      · exact named
      · exact others part member

/-- The terms on a spine are named as the term. -/
theorem Named.of_mem_spine (named : term.Named isVar) (member : part ∈ term.spine) :
    part.Named isVar :=
  named.of_mem_spineOnto (fun _ member => absurd member List.not_mem_nil) member

/-- Applying a named term to named arguments keeps the names. -/
theorem Named.applyTo {args : List Term} (named : term.Named isVar)
    (arguments : ∀ arg ∈ args, arg.Named isVar) : (term.applyTo args).Named isVar := by
  induction args generalizing term with
  | nil => exact named
  | cons arg args ih =>
      exact ih (named.app (arguments arg List.mem_cons_self)) fun other member =>
        arguments other (List.mem_cons_of_mem _ member)

/-- The items of a list are named as the list. -/
theorem Named.of_mem_ofList {items : List Term} (named : (ofList items).Named isVar)
    (member : part ∈ items) : part.Named isVar := by
  induction items with
  | nil => exact absurd member List.not_mem_nil
  | cons item items ih =>
      change (Term.ctr consName [item, ofList items]).Named isVar at named
      cases named with
      | ctr _ arguments =>
          rcases List.mem_cons.mp member with rfl | member
          · exact arguments _ (by simp)
          · exact ih (arguments _ (by simp)) member

/-- A list of named items is named. -/
theorem named_ofList {items : List Term} (named : ∀ item ∈ items, item.Named isVar) :
    (ofList items).Named isVar := by
  induction items with
  | nil => exact .ctr (by decide) nofun
  | cons item items ih =>
      refine .ctr (by decide) fun arg member => ?_
      rcases List.mem_cons.mp member with rfl | member
      · exact named _ List.mem_cons_self
      · obtain rfl := List.mem_singleton.mp member
        exact ih fun item member => named item (List.mem_cons_of_mem _ member)

/-- A text is named, since there are only numbers in it. -/
theorem named_ofText (text : List Char) : (ofText text).Named isVar := by
  induction text with
  | nil => exact .ctr (by decide) nofun
  | cons c text ih =>
      refine .ctr (by decide) fun arg member => ?_
      rcases List.mem_cons.mp member with rfl | member
      · exact .num
      · obtain rfl := List.mem_singleton.mp member
        exact ih

end Term

/-! ## What is derived -/

/-- A phrase whose terms are well named. -/
def Phrase.WellNamed : Phrase → Prop
  | .term single => single.WellNamed
  | .terms row => ∀ part ∈ row, part.WellNamed
  | .items row => ∀ part ∈ row, part.WellNamed

/-- Whatever the grammar derives is well named. -/
theorem Derives.wellNamed {text rest : List Char} {phrase : Phrase}
    (derivation : Derives text phrase rest) : phrase.WellNamed := by
  induction derivation with
  | letIn _ binder _ _ _ _ value scope => exact Term.Named.letIn binder.1 value scope
  | dup _ binder binder' _ _ _ _ value scope => exact Term.Named.dup binder.1 binder'.1 value scope
  | lam _ _ binder _ scope => exact Term.Named.lam binder.1 scope
  | bareCtr named capital => exact Term.Named.ctr ⟨named.1, capital⟩ nofun
  | ctr _ named capital _ _ inner => exact Term.Named.ctr ⟨named.1, capital⟩ inner
  | op2 _ _ _ _ _ first second => exact Term.Named.op2 first second
  | unit => exact Term.Named.num
  | app _ _ _ _ inner =>
      exact Term.Named.applyTo (inner _ List.mem_cons_self) fun arg member =>
        inner arg (List.mem_cons_of_mem _ member)
  | num => exact Term.Named.num
  | chr => exact Term.Named.num
  | str => exact Term.named_ofText _
  | openStr => exact Term.named_ofText _
  | lst _ _ _ inner => exact Term.named_ofList inner
  | var named small => exact Term.Named.var ⟨named.1, small⟩
  | noTerms => exact nofun
  | moreTerms _ _ first others =>
      intro term member
      rcases List.mem_cons.mp member with rfl | member
      · exact first
      · exact others term member
  | noItems => exact nofun
  | moreItems _ _ first others | commaItems _ _ _ first others =>
      intro item member
      rcases List.mem_cons.mp member with rfl | member
      · exact first
      · exact others item member

end Termbook
