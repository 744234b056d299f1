import Termbook.Proofs.Layout

/-! # Printing without a memory

The printer by plain recursion, which looks for a string literal and then for a list at every
constructor as if it had never seen one before. It is too slow for long chains, since a chain
without sugar is scanned again from each of its links, but it is what the printer with its stack and
its rejected numbers has to agree with, also where one constructor stands in several places. -/

namespace Termbook

namespace Node

/-! ## The weights of parts -/

/-- A node in a list of nodes is lighter than the list. -/
theorem weight_lt_of_mem {node : Node} {nodes : List Node} (member : node ∈ nodes) :
    weight node < weightList nodes := by
  induction nodes with
  | nil => exact absurd member List.not_mem_nil
  | cons first nodes ih =>
      rw [weightList]
      rcases List.mem_cons.mp member with rfl | member
      · omega
      · have := ih member
        omega

/-- The nodes on the spine of an application are lighter than the application. -/
theorem weight_lt_of_mem_spine {func argm part : Node} (member : part ∈ (app func argm).spine) :
    weight part < weight (app func argm) := by
  have := weight_lt_of_mem member
  have := weightList_spine_app func argm
  omega

/-- The items that the list recogniser answers are lighter than the list. -/
theorem weight_lt_of_mem_listSugar {node item : Node} {rejected : Rejected} {items : List Node}
    (sugar : (node.listSugar rejected).1 = some items) (member : item ∈ items) :
    weight item < weight node := by
  have := weight_lt_of_mem member
  have := weightList_listSugar sugar
  omega

/-! ## The printer -/

/-- The text of a node by recursion on its parts, where both recognisers start from scratch at every
constructor. -/
def renderAfresh : Node → String
  | var name => name
  | num value => toString value.toNat
  | dup first second expr body =>
      "dup " ++ first ++ " " ++ second ++ " = " ++ renderAfresh expr ++ "; " ++ renderAfresh body
  | letIn name expr body =>
      "let " ++ name ++ " = " ++ renderAfresh expr ++ "; " ++ renderAfresh body
  | lam name body => "λ" ++ name ++ " " ++ renderAfresh body
  | app func argm =>
      "(" ++ " ".intercalate ((app func argm).spine.attach.map fun part => renderAfresh part.1) ++
        ")"
  | op2 oper left right =>
      "(" ++ oper.symbol ++ " " ++ renderAfresh left ++ " " ++ renderAfresh right ++ ")"
  | ctr id name args =>
      match ((ctr id name args).textSugar ∅).1 with
      | some literal => String.ofList literal
      | none =>
          match _sugar : ((ctr id name args).listSugar ∅).1 with
          | some items =>
              "[" ++ ", ".intercalate (items.attach.map fun item => renderAfresh item.1) ++ "]"
          | none =>
              "(" ++ name ++ String.join (args.attach.map fun arg => " " ++ renderAfresh arg.1) ++
                ")"
termination_by node => node.weight
decreasing_by
  · simp only [weight]; omega
  · simp only [weight]; omega
  · simp only [weight]; omega
  · simp only [weight]; omega
  · simp only [weight]; omega
  · exact weight_lt_of_mem_spine part.2
  · simp only [weight]; omega
  · simp only [weight]; omega
  · exact weight_lt_of_mem_listSugar _sugar item.2
  · have := weight_lt_of_mem arg.2
    simp only [weight]; omega

variable {node : Node}

/-- What the text recogniser answers from scratch is the literal of the node's text. -/
theorem textSugar_empty (node : Node) :
    (node.textSugar ∅).1 = node.toTerm.toText?.bind literal? :=
  textSugar_eq (sound_empty node) (.refl node)

/-- What the list recogniser answers from scratch are the items of the node. -/
theorem listSugar_empty (node : Node) :
    (node.listSugar ∅).1.map (·.map toTerm) = node.toTerm.toList? := by
  have view := listSugar_eq (sound_empty node) (.refl node)
  rwa [funext toTermList_eq_map] at view

/-- Where the nodes of a list are printed afresh as their terms are laid out, so is the list. -/
theorem map_attach_renderAfresh (change : String → String) {nodes : List Node}
    (same : ∀ part : { part // part ∈ nodes }, part.1.renderAfresh = part.1.toTerm.plain) :
    nodes.attach.map (fun part => change part.1.renderAfresh) =
      (nodes.map toTerm).map fun term => change term.plain := by
  rw [List.map_congr_left fun part _ => congrArg change (same part), List.map_map,
    List.attach_map_val (f := fun node : Node => change node.toTerm.plain)]
  rfl

/-- What is printed afresh is the plain layout of the term. -/
theorem renderAfresh_eq_plain (node : Node) : node.renderAfresh = node.toTerm.plain := by
  fun_induction renderAfresh node with
  | case1 name => rw [toTerm, Term.plain]
  | case2 value => rw [toTerm, Term.plain]
  | case3 first second expr body exprPlain bodyPlain =>
      rw [toTerm, Term.plain, exprPlain, bodyPlain]
  | case4 name expr body exprPlain bodyPlain => rw [toTerm, Term.plain, exprPlain, bodyPlain]
  | case5 name body bodyPlain => rw [toTerm, Term.plain, bodyPlain]
  | case6 func argm partPlain =>
      have spine : (app func argm).spine.map toTerm = (app func argm).toTerm.spine :=
        map_toTerm_spineOnto _ _
      have parts := map_attach_renderAfresh id partPlain
      simp only [id_eq] at parts
      rw [parts, spine, toTerm, Term.plain_app]
  | case7 oper left right leftPlain rightPlain =>
      rw [toTerm, Term.plain, leftPlain, rightPlain]
  | case8 id name args literal sugar =>
      rw [textSugar_empty, toTerm] at sugar
      rw [toTerm, Term.plain_of_literal sugar]
  | case9 number name args noText items sugar itemPlain =>
      have view := listSugar_empty (ctr number name args)
      rw [sugar, Option.map_some, toTerm] at view
      rw [textSugar_empty, toTerm] at noText
      have parts := map_attach_renderAfresh id itemPlain
      simp only [id_eq] at parts
      rw [parts, toTerm, Term.plain_of_list noText view.symm]
  | case10 id name args noText noList argPlain =>
      have view := listSugar_empty (ctr id name args)
      rw [noList, Option.map_none, toTerm] at view
      rw [textSugar_empty, toTerm] at noText
      rw [map_attach_renderAfresh (" " ++ ·) argPlain, toTerm,
        Term.plain_of_unsugared noText view.symm, toTermList_eq_map]

/-! ## The two printers -/

/-- The printer with its stack and its rejected numbers writes what the plain recursion writes,
wherever equal numbers mean equal constructors, whichever of them stand in several places; and it is
the text that the term has without any sharing. -/
theorem render_eq_renderAfresh (root : Node) (consistent : root.Consistent) :
    root.render = root.renderAfresh ∧ root.render = root.toTerm.render := by
  have plain := render_eq_plain consistent
  exact ⟨by rw [plain, renderAfresh_eq_plain], by rw [plain, Term.render_eq_plain]⟩

/-- A consistent node may be shared between the two places of an application. -/
theorem consistent_app_self (consistent : node.Consistent) : (app node node).Consistent := by
  have below {id : Nat} {name : String} {args : List Node}
      (inside : (app node node).Contains (ctr id name args)) :
      node.Contains (ctr id name args) := by
    cases inside with
    | child member inside =>
        obtain rfl : _ = node := by simpa [children] using member
        exact inside
  exact fun id name args name' args' inside inside' => consistent (below inside) (below inside')

/-- A text with both delimiters, shared between two places, of which the first one rejects the front
of the chain for the second one. -/
theorem render_eq_renderAfresh_shared :
    (app (ofTerm (.ofText [backtick, doubleQuote, 'a']))
        (ofTerm (.ofText [backtick, doubleQuote, 'a']))).Consistent ∧
      (app (ofTerm (.ofText [backtick, doubleQuote, 'a']))
        (ofTerm (.ofText [backtick, doubleQuote, 'a']))).render =
          (app (ofTerm (.ofText [backtick, doubleQuote, 'a']))
            (ofTerm (.ofText [backtick, doubleQuote, 'a']))).renderAfresh := by
  have consistent := consistent_app_self
    (consistent_ofTerm (.ofText [backtick, doubleQuote, 'a']))
  exact ⟨consistent, (render_eq_renderAfresh _ consistent).1⟩

end Node

end Termbook
