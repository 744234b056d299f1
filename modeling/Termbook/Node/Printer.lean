import Termbook.Node.Sugar

/-! # Printing nodes

A node is printed piece by piece from a stack of what is still to be written, and one set of
rejected numbers serves the whole run. The layout is canonical: one space or one fixed mark between
any two parts, and sugar wherever a constructor has one. -/

namespace Termbook

/-- A part of what is to be written: a text as it is, or a node to print in its place. -/
inductive Piece where
  /-- A text to write. -/
  | text (content : String)
  /-- A node to print. -/
  | sub (node : Node)

namespace Piece

/-- A bound on the number of steps that it takes to write a piece. -/
def weight : Piece → Nat
  | text _ => 1
  | sub node => node.weight

/-- A bound on the number of steps that it takes to write some pieces. -/
def weightSum : List Piece → Nat
  | [] => 0
  | piece :: rest => piece.weight + weightSum rest

/-- Nodes, each with `lead` before it. -/
def led (lead : String) : List Node → List Piece
  | [] => []
  | node :: rest => .text lead :: .sub node :: led lead rest

/-- Nodes with `mark` between any two of them. -/
def separated (mark : String) : List Node → List Piece
  | [] => []
  | node :: rest => .sub node :: led mark rest

@[simp] theorem weightSum_nil : weightSum [] = 0 := rfl

@[simp] theorem weightSum_cons (piece : Piece) (pieces : List Piece) :
    weightSum (piece :: pieces) = piece.weight + weightSum pieces := rfl

@[simp] theorem weightSum_append (before after : List Piece) :
    weightSum (before ++ after) = weightSum before + weightSum after := by
  induction before with
  | nil => simp
  | cons piece rest ih => simp [ih, Nat.add_assoc]

/-- Led nodes weigh what the nodes weigh. -/
theorem weightSum_led (lead : String) (nodes : List Node) :
    weightSum (led lead nodes) = Node.weightList nodes := by
  induction nodes with
  | nil => rfl
  | cons node rest ih => simp [led, weight, Node.weightList, ih]; omega

/-- Separated nodes weigh no more than the nodes. -/
theorem weightSum_separated_le (mark : String) (nodes : List Node) :
    weightSum (separated mark nodes) ≤ Node.weightList nodes := by
  cases nodes with
  | nil => simp [separated, Node.weightList]
  | cons node rest => simp [separated, weight, Node.weightList, weightSum_led]

end Piece

namespace Node

/-- The pieces of a node and the rejected numbers from then on. A constructor is tried as a string
literal first and as a list next. -/
def pieces (node : Node) (rejected : Rejected) : List Piece × Rejected :=
  match node with
  | var name => ([.text name], rejected)
  | num value => ([.text (toString value.toNat)], rejected)
  | dup first second expr body =>
      ([.text "dup ", .text first, .text " ", .text second, .text " = ", .sub expr, .text "; ",
        .sub body], rejected)
  | letIn name expr body =>
      ([.text "let ", .text name, .text " = ", .sub expr, .text "; ", .sub body], rejected)
  | lam name body => ([.text "λ", .text name, .text " ", .sub body], rejected)
  | app func argm =>
      (.text "(" :: Piece.separated " " (app func argm).spine ++ [.text ")"], rejected)
  | op2 oper left right =>
      ([.text "(", .text oper.symbol, .text " ", .sub left, .text " ", .sub right, .text ")"],
        rejected)
  | ctr id name args =>
      match (ctr id name args).textSugar rejected with
      | (some literal, rejected) => ([.text (String.ofList literal)], rejected)
      | (none, rejected) =>
          match (ctr id name args).listSugar rejected with
          | (some items, rejected) =>
              (.text "[" :: Piece.separated ", " items ++ [.text "]"], rejected)
          | (none, rejected) =>
              (.text "(" :: .text name :: Piece.led " " args ++ [.text ")"], rejected)

/-- A spine weighs no more than its application and what comes after it. -/
theorem weightList_spineOnto_le (node : Node) (rest : List Node) :
    weightList (node.spineOnto rest) ≤ 1 + weight node + weightList rest := by
  fun_induction spineOnto node rest with
  | case1 rest func argm ih => simp only [weightList, weight] at ih ⊢; omega
  | case2 => simp [weightList]

/-- The spine of an application is lighter than the application by more than its brackets. -/
theorem weightList_spine_app (func argm : Node) :
    weightList (app func argm).spine + 2 < weight (app func argm) := by
  have := weightList_spineOnto_le func [argm]
  simp only [spine, spineOnto, weightList, weight] at this ⊢
  omega

/-- The pieces of a node weigh less than the node. -/
theorem weightSum_pieces (node : Node) (rejected : Rejected) :
    Piece.weightSum (node.pieces rejected).1 < node.weight := by
  fun_cases pieces node rejected with
  | case6 func argm =>
      have spineLight := weightList_spine_app func argm
      have := Piece.weightSum_separated_le " " (app func argm).spine
      simp [Piece.weight]; omega
  | case9 id name args _ _ items _ sugar =>
      have light := weightList_listSugar (by rw [sugar])
      have := Piece.weightSum_separated_le ", " items
      simp [Piece.weight]; omega
  | case10 => simp [Piece.weight, weight, Piece.weightSum_led]; omega
  | _ => simp [Piece.weight, weight] <;> omega

/-- Write the pieces on a stack after the text in `written`. -/
def printStack (stack : List Piece) (rejected : Rejected) (written : String) : String :=
  match stack with
  | [] => written
  | .text content :: stack => printStack stack rejected (written ++ content)
  | .sub node :: stack =>
      let step := node.pieces rejected
      printStack (step.1 ++ stack) step.2 written
termination_by Piece.weightSum stack
decreasing_by
  · simp [Piece.weight]
  · have := weightSum_pieces node rejected
    simp [Piece.weight]; omega

/-- The canonical text of a node. -/
def render (node : Node) : String :=
  printStack [.sub node] ∅ ""

end Node

end Termbook
