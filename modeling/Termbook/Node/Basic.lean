import Termbook.Term.Basic

/-! # Nodes

A term in which every constructor has a number of its own, by which the printer remembers it. Equal
numbers mean one and the same subterm, which may stand in several places. -/

namespace Termbook

/-- A term whose constructors are numbered. -/
inductive Node where
  /-- An occurrence of a variable. -/
  | var (name : String)
  /-- A duplication. -/
  | dup (first second : String) (expr body : Node)
  /-- A local definition. -/
  | letIn (name : String) (expr body : Node)
  /-- An abstraction. -/
  | lam (name : String) (body : Node)
  /-- An application. -/
  | app (func argm : Node)
  /-- A constructor, with its number. -/
  | ctr (id : Nat) (name : String) (args : List Node)
  /-- A number. -/
  | num (value : UInt64)
  /-- A binary operation. -/
  | op2 (oper : Oper) (left right : Node)
  deriving Repr, Inhabited

namespace Node

mutual

/-- The term of a node: the numbers are forgotten. -/
def toTerm : Node → Term
  | var name => .var name
  | dup first second expr body => .dup first second (toTerm expr) (toTerm body)
  | letIn name expr body => .letIn name (toTerm expr) (toTerm body)
  | lam name body => .lam name (toTerm body)
  | app func argm => .app (toTerm func) (toTerm argm)
  | ctr _ name args => .ctr name (toTermList args)
  | num value => .num value
  | op2 oper left right => .op2 oper (toTerm left) (toTerm right)

/-- The terms of a list of nodes. -/
def toTermList : List Node → List Term
  | [] => []
  | node :: rest => toTerm node :: toTermList rest

end

mutual

/-- Number the constructors of a term from `next` on, in the order in which they are written; the
answer comes with the first number left over. -/
def number : Term → (next : Nat) → Node × Nat
  | .var name, next => (.var name, next)
  | .dup first second expr body, next =>
      let (expr, next) := number expr next
      let (body, next) := number body next
      (.dup first second expr body, next)
  | .letIn name expr body, next =>
      let (expr, next) := number expr next
      let (body, next) := number body next
      (.letIn name expr body, next)
  | .lam name body, next =>
      let (body, next) := number body next
      (.lam name body, next)
  | .app func argm, next =>
      let (func, next) := number func next
      let (argm, next) := number argm next
      (.app func argm, next)
  | .ctr name args, next =>
      let (nodes, after) := numberList args (next + 1)
      (.ctr next name nodes, after)
  | .num value, next => (.num value, next)
  | .op2 oper left right, next =>
      let (left, next) := number left next
      let (right, next) := number right next
      (.op2 oper left right, next)

/-- Number the constructors of a list of terms. -/
def numberList : List Term → (next : Nat) → List Node × Nat
  | [], next => ([], next)
  | term :: rest, next =>
      let (node, next) := number term next
      let (nodes, next) := numberList rest next
      (node :: nodes, next)

end

/-- A term whose constructors are numbered from zero on, no two alike. -/
def ofTerm (term : Term) : Node :=
  (number term 0).1

mutual

/-- Numbering changes nothing but the numbers. -/
theorem toTerm_number (term : Term) (next : Nat) : (number term next).1.toTerm = term := by
  cases term with
  | var name => rfl
  | dup first second expr body => simp [number, toTerm, toTerm_number expr, toTerm_number body]
  | letIn name expr body => simp [number, toTerm, toTerm_number expr, toTerm_number body]
  | lam name body => simp [number, toTerm, toTerm_number body]
  | app func argm => simp [number, toTerm, toTerm_number func, toTerm_number argm]
  | ctr name args => simp [number, toTerm, toTermList_numberList args]
  | num value => rfl
  | op2 oper left right => simp [number, toTerm, toTerm_number left, toTerm_number right]

/-- Numbering changes nothing but the numbers. -/
theorem toTermList_numberList (terms : List Term) (next : Nat) :
    toTermList (numberList terms next).1 = terms := by
  cases terms with
  | nil => rfl
  | cons term rest =>
      simp [numberList, toTermList, toTerm_number term, toTermList_numberList rest]

end

/-- The term of a term's node is the term. -/
@[simp] theorem toTerm_ofTerm (term : Term) : (ofTerm term).toTerm = term :=
  toTerm_number term 0

/-! ## Spines and weights -/

/-- The nodes along the left spine of an application, before those in `rest`. -/
def spineOnto : Node → (rest : List Node) → List Node
  | app func argm, rest => spineOnto func (argm :: rest)
  | head, rest => head :: rest

/-- The innermost function of an application followed by its arguments; any other node alone. -/
def spine (node : Node) : List Node :=
  node.spineOnto []

mutual

/-- A bound on the number of steps that it takes to print a node. -/
def weight : Node → Nat
  | var _ => 4
  | dup _ _ expr body => 8 + weight expr + weight body
  | letIn _ expr body => 8 + weight expr + weight body
  | lam _ body => 8 + weight body
  | app func argm => 8 + weight func + weight argm
  | ctr _ _ args => 8 + weightList args
  | num _ => 4
  | op2 _ left right => 8 + weight left + weight right

/-- The weights of a list of nodes, and one more for each. -/
def weightList : List Node → Nat
  | [] => 0
  | node :: rest => 1 + weight node + weightList rest

end

end Node

end Termbook
