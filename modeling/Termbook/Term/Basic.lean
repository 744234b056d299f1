import Termbook.Term.Oper
import Termbook.Text.CodePoint

/-! # Terms

Lambda terms with duplications, constructors, 64-bit numbers and binary operators, and the
constructor chains that stand for lists and for text: `Cons` and `Nil` for a list, `StrCons` and
`StrNil` for a text, whose characters are numbers. -/

namespace Termbook

/-- A term. Names are not checked here: which of them can be written is a matter of the reader. -/
inductive Term where
  /-- An occurrence of a variable. -/
  | var (name : String)
  /-- A duplication, which gives the value of `expr` two names in `body`. -/
  | dup (first second : String) (expr body : Term)
  /-- A local definition of `name` as `expr` in `body`. -/
  | letIn (name : String) (expr body : Term)
  /-- An abstraction. -/
  | lam (name : String) (body : Term)
  /-- An application. -/
  | app (func argm : Term)
  /-- A constructor with its arguments. -/
  | ctr (name : String) (args : List Term)
  /-- A number. -/
  | num (value : UInt64)
  /-- A binary operation. -/
  | op2 (oper : Oper) (left right : Term)
  deriving Repr, Inhabited

namespace Term

mutual

/-- Structural equality of terms is decidable. -/
def decEq : (a b : Term) → Decidable (a = b)
  | .var x, .var y => decidable_of_iff (x = y) (by simp)
  | .dup x₁ x₂ e b, .dup y₁ y₂ e' b' =>
      if names : x₁ = y₁ ∧ x₂ = y₂ then
        match decEq e e', decEq b b' with
        | .isTrue he, .isTrue hb => .isTrue (by rw [names.1, names.2, he, hb])
        | .isFalse he, _ => .isFalse (by simp [he])
        | _, .isFalse hb => .isFalse (by simp [hb])
      else .isFalse (by simp_all)
  | .letIn x e b, .letIn y e' b' =>
      if names : x = y then
        match decEq e e', decEq b b' with
        | .isTrue he, .isTrue hb => .isTrue (by rw [names, he, hb])
        | .isFalse he, _ => .isFalse (by simp [he])
        | _, .isFalse hb => .isFalse (by simp [hb])
      else .isFalse (by simp [names])
  | .lam x b, .lam y b' =>
      if names : x = y then
        match decEq b b' with
        | .isTrue hb => .isTrue (by rw [names, hb])
        | .isFalse hb => .isFalse (by simp [hb])
      else .isFalse (by simp [names])
  | .app f a, .app f' a' =>
      match decEq f f', decEq a a' with
      | .isTrue hf, .isTrue ha => .isTrue (by rw [hf, ha])
      | .isFalse hf, _ => .isFalse (by simp [hf])
      | _, .isFalse ha => .isFalse (by simp [ha])
  | .ctr x as, .ctr y bs =>
      if names : x = y then
        match decEqList as bs with
        | .isTrue h => .isTrue (by rw [names, h])
        | .isFalse h => .isFalse (by simp [h])
      else .isFalse (by simp [names])
  | .num v, .num w => decidable_of_iff (v = w) (by simp)
  | .op2 o l r, .op2 o' l' r' =>
      if opers : o = o' then
        match decEq l l', decEq r r' with
        | .isTrue hl, .isTrue hr => .isTrue (by rw [opers, hl, hr])
        | .isFalse hl, _ => .isFalse (by simp [hl])
        | _, .isFalse hr => .isFalse (by simp [hr])
      else .isFalse (by simp [opers])
  | .var .., .dup .. | .var .., .letIn .. | .var .., .lam .. | .var .., .app .. | .var .., .ctr ..
  | .var .., .num .. | .var .., .op2 .. | .dup .., .var .. | .dup .., .letIn .. | .dup .., .lam ..
  | .dup .., .app .. | .dup .., .ctr .. | .dup .., .num .. | .dup .., .op2 .. | .letIn .., .var ..
  | .letIn .., .dup .. | .letIn .., .lam .. | .letIn .., .app .. | .letIn .., .ctr ..
  | .letIn .., .num .. | .letIn .., .op2 .. | .lam .., .var .. | .lam .., .dup ..
  | .lam .., .letIn .. | .lam .., .app .. | .lam .., .ctr .. | .lam .., .num .. | .lam .., .op2 ..
  | .app .., .var .. | .app .., .dup .. | .app .., .letIn .. | .app .., .lam .. | .app .., .ctr ..
  | .app .., .num .. | .app .., .op2 .. | .ctr .., .var .. | .ctr .., .dup .. | .ctr .., .letIn ..
  | .ctr .., .lam .. | .ctr .., .app .. | .ctr .., .num .. | .ctr .., .op2 .. | .num .., .var ..
  | .num .., .dup .. | .num .., .letIn .. | .num .., .lam .. | .num .., .app .. | .num .., .ctr ..
  | .num .., .op2 .. | .op2 .., .var .. | .op2 .., .dup .. | .op2 .., .letIn .. | .op2 .., .lam ..
  | .op2 .., .app .. | .op2 .., .ctr .. | .op2 .., .num .. => .isFalse nofun

/-- Structural equality of lists of terms is decidable. -/
def decEqList : (as bs : List Term) → Decidable (as = bs)
  | [], [] => .isTrue rfl
  | [], _ :: _ | _ :: _, [] => .isFalse nofun
  | a :: as, b :: bs =>
      match decEq a b with
      | .isFalse h => .isFalse (by simp [h])
      | .isTrue h =>
          match decEqList as bs with
          | .isTrue hs => .isTrue (by rw [h, hs])
          | .isFalse hs => .isFalse (by simp [hs])

end

instance : DecidableEq Term := decEq

/-! ## Lists and text as constructor chains -/

/-- The constructor of a list's link. -/
def consName : String := "Cons"

/-- The constructor of a list's end. -/
def nilName : String := "Nil"

/-- The constructor of a text's link. -/
def strConsName : String := "StrCons"

/-- The constructor of a text's end. -/
def strNilName : String := "StrNil"

/-- The chain of `Cons` that stands for a list. -/
def ofList (items : List Term) : Term :=
  items.foldr (fun item rest => ctr consName [item, rest]) (ctr nilName [])

/-- The number of a code point. -/
def ofCodePoint (code : CodePoint) : Term :=
  num (UInt64.ofNat code.number)

/-- The chain of `StrCons` that stands for a sequence of code points. -/
def ofCodePoints (codes : List CodePoint) : Term :=
  codes.foldr (fun code rest => ctr strConsName [ofCodePoint code, rest]) (ctr strNilName [])

/-- The number that stands for a character. -/
def ofChar (c : Char) : Term :=
  ofCodePoint (.ofChar c)

/-- The chain of `StrCons` that stands for a text, whose code points are those of characters. -/
def ofText (text : List Char) : Term :=
  ofCodePoints (text.map .ofChar)

/-- Apply a term to arguments, one after the other. -/
def applyTo (func : Term) (args : List Term) : Term :=
  args.foldl app func

/-! ## Spines -/

/-- The terms along the left spine of an application, before those in `rest`. -/
def spineOnto : Term → (rest : List Term) → List Term
  | app func argm, rest => spineOnto func (argm :: rest)
  | head, rest => head :: rest

/-- The innermost function of an application followed by its arguments; any other term alone. -/
def spine (term : Term) : List Term :=
  term.spineOnto []

end Term

end Termbook
