import Std.Data.HashSet
import Termbook.Node.Basic
import Termbook.Text.CodePoint
import Termbook.Text.Literal

/-! # Recognising sugar

A chain of constructors that stands for a text or a list is printed as a literal. Whether one does
is known only at its end, so the constructors of a chain that failed are remembered as rejected:
asked again at an inner link, the recogniser stops at once. Text and lists share the rejected
numbers, because a link of a failed chain of one kind is no link of the other kind. -/

namespace Termbook

/-- The numbers of constructors that are known to begin no literal. -/
abbrev Rejected := Std.HashSet Nat

/-- What is found of a chain: its links in order, each with the number of its constructor, and
whether it ends as a chain of its kind ends. -/
structure Chain (α : Type) where
  /-- The links before the end or the first deviation. -/
  links : List (Nat × α)
  /-- Whether the chain is closed by the constructor for its end. -/
  closed : Bool

namespace Chain

/-- A chain that ends here. -/
def finished {α : Type} : Chain α := ⟨[], true⟩

/-- A chain that deviates here. -/
def broken {α : Type} : Chain α := ⟨[], false⟩

/-- A chain with one more link in front. -/
def link {α : Type} (id : Nat) (item : α) (chain : Chain α) : Chain α :=
  ⟨(id, item) :: chain.links, chain.closed⟩

/-- What the links hold. -/
def items {α : Type} (chain : Chain α) : List α :=
  chain.links.map (·.2)

/-- The numbers of the links. -/
def ids {α : Type} (chain : Chain α) : List Nat :=
  chain.links.map (·.1)

end Chain

namespace Node

/-- The text chain that starts at a node, up to a rejected constructor. -/
def textChain (rejected : Rejected) : Node → Chain Char
  | ctr id name [num code, rest] =>
      if rejected.contains id then .broken
      else if name = Term.strConsName then
        match charOfCode? code with
        | some c => (textChain rejected rest).link id c
        | none => .broken
      else .broken
  | ctr id name [] =>
      if rejected.contains id then .broken
      else if name = Term.strNilName then .finished
      else .broken
  | _ => .broken

/-- The list chain that starts at a node, up to a rejected constructor. -/
def listChain (rejected : Rejected) : Node → Chain Node
  | ctr id name [item, rest] =>
      if rejected.contains id then .broken
      else if name = Term.consName then (listChain rejected rest).link id item
      else .broken
  | ctr id name [] =>
      if rejected.contains id then .broken
      else if name = Term.nilName then .finished
      else .broken
  | _ => .broken

/-- The string literal of a node, if it is a text chain that has one, and the rejected numbers from
then on. Of a text with both delimiters only the links are rejected from which on both occur. -/
def textSugar (node : Node) (rejected : Rejected) : Option (List Char) × Rejected :=
  let chain := node.textChain rejected
  if chain.closed then
    match literal? chain.items with
    | some text => (some text, rejected)
    | none => (none, rejected.insertMany (chain.ids.take (clashLength chain.items)))
  else (none, rejected.insertMany chain.ids)

/-- The items of a node, if it is a list chain, and the rejected numbers from then on. -/
def listSugar (node : Node) (rejected : Rejected) : Option (List Node) × Rejected :=
  let chain := node.listChain rejected
  if chain.closed then (some chain.items, rejected)
  else (none, rejected.insertMany chain.ids)

/-- The items of a list chain are lighter than the chain by more than its brackets. -/
theorem weightList_listChain (rejected : Rejected) (node : Node) :
    weightList (node.listChain rejected).items + 2 < weight node := by
  fun_induction listChain rejected node with
  | case2 id item rest _ ih =>
      simp only [Chain.items, Chain.link, List.map_cons, weightList, weight] at ih ⊢
      omega
  | case7 node => cases node <;> simp [Chain.broken, Chain.items, weightList, weight] <;> omega
  | _ => simp [Chain.broken, Chain.finished, Chain.items, weightList, weight] <;> omega

/-- The items of a recognised list are lighter than the list by more than its brackets. -/
theorem weightList_listSugar {node : Node} {rejected : Rejected} {items : List Node}
    (sugar : (node.listSugar rejected).1 = some items) : weightList items + 2 < weight node := by
  simp only [listSugar] at sugar
  split at sugar <;> simp only [Option.some.injEq, reduceCtorEq] at sugar
  exact sugar ▸ weightList_listChain rejected node

end Node

end Termbook
