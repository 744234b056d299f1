import Termbook.Proofs.Sugar
import Termbook.Term.Printer

/-! # The printer writes the plain layout

The printer keeps a stack of what is still to be written and one set of rejected numbers for the
whole run. As long as that set is sound, each node is taken apart as the plain layout takes its term
apart, so a run writes the plain texts of what stands on the stack. -/

namespace Termbook

/-- Texts with a mark between any two of them are the first one and the others led by the mark. -/
theorem intercalate_cons (mark first : String) (others : List String) :
    mark.intercalate (first :: others) = first ++ String.join (others.map (mark ++ ·)) := by
  induction others generalizing first with
  | nil => simp
  | cons second others ih =>
      rw [String.intercalate_cons_cons, ih, List.map_cons, String.join_cons, String.append_assoc,
        String.append_assoc]

/-! ## The plain layout, case by case -/

namespace Term

/-- An application is laid out as its spine in brackets. -/
theorem plain_app (func argm : Term) :
    (app func argm).plain = "(" ++ " ".intercalate ((app func argm).spine.map plain) ++ ")" := by
  rw [plain, List.attach_map_val (f := plain)]

/-- A constructor has a string literal, or none but a list, or neither of the two. -/
theorem sugar_cases (name : String) (args : List Term) :
    (∃ literal, (ctr name args).toText?.bind literal? = some literal) ∨
      ((ctr name args).toText?.bind literal? = none ∧
        ∃ items, (ctr name args).toList? = some items) ∨
      ((ctr name args).toText?.bind literal? = none ∧ (ctr name args).toList? = none) := by
  cases (ctr name args).toText?.bind literal? with
  | some literal => exact .inl ⟨literal, rfl⟩
  | none =>
      cases (ctr name args).toList? with
      | some items => exact .inr (.inl ⟨rfl, items, rfl⟩)
      | none => exact .inr (.inr ⟨rfl, rfl⟩)

/-- A constructor with a string literal is laid out as that literal. -/
theorem plain_of_literal {name : String} {args : List Term} {literal : List Char}
    (sugar : (ctr name args).toText?.bind literal? = some literal) :
    (ctr name args).plain = String.ofList literal := by
  rw [plain, sugar]

/-- A list without a string literal is laid out item by item. -/
theorem plain_of_list {name : String} {args items : List Term}
    (noText : (ctr name args).toText?.bind literal? = none)
    (view : (ctr name args).toList? = some items) :
    (ctr name args).plain = "[" ++ ", ".intercalate (items.map plain) ++ "]" := by
  rw [plain, noText]
  dsimp only
  split
  · next items' view' =>
      obtain rfl : items = items' := by simpa [view] using view'
      rw [List.attach_map_val (f := plain)]
  · next noList => simp [view] at noList

/-- Any other constructor is laid out in brackets. -/
theorem plain_of_unsugared {name : String} {args : List Term}
    (noText : (ctr name args).toText?.bind literal? = none)
    (noList : (ctr name args).toList? = none) :
    (ctr name args).plain =
      "(" ++ name ++ String.join (args.map fun arg => " " ++ arg.plain) ++ ")" := by
  rw [plain, noText]
  dsimp only
  split
  · next view => simp [noList] at view
  · rw [List.attach_map_val (f := fun arg => " " ++ plain arg)]

end Term

namespace Node

/-! ## Spines -/

/-- The terms of a list of nodes, one by one. -/
theorem toTermList_eq_map (nodes : List Node) : toTermList nodes = nodes.map toTerm := by
  induction nodes with
  | nil => rfl
  | cons node nodes ih => rw [toTermList, List.map_cons, ih]

/-- The spine of a node is that of its term. -/
theorem map_toTerm_spineOnto (node : Node) (rest : List Node) :
    (node.spineOnto rest).map toTerm = node.toTerm.spineOnto (rest.map toTerm) := by
  fun_induction spineOnto node rest with
  | case1 rest func argm ih =>
      rw [ih]
      rfl
  | case2 head rest notApp =>
      cases head with
      | app func argm => exact (notApp func argm rfl).elim
      | _ => rfl

/-- What comes onto a spine stands in the node or was there before. -/
theorem contains_or_mem_of_mem_spineOnto {node part : Node} {rest : List Node}
    (member : part ∈ node.spineOnto rest) : node.Contains part ∨ part ∈ rest := by
  fun_induction spineOnto node rest with
  | case1 rest func argm ih =>
      rcases ih member with inside | member
      · exact .inl (.child (by simp [children]) inside)
      · rcases List.mem_cons.mp member with rfl | member
        · exact .inl (contains_of_mem_children (by simp [children]))
        · exact .inr member
  | case2 head rest =>
      rcases List.mem_cons.mp member with rfl | member
      · exact .inl (.refl _)
      · exact .inr member

/-- What is on a spine stands in the node. -/
theorem contains_of_mem_spine {node part : Node} (member : part ∈ node.spine) :
    node.Contains part :=
  (contains_or_mem_of_mem_spineOnto member).resolve_right List.not_mem_nil

end Node

/-! ## Pieces -/

namespace Piece

/-- The text of a piece in the plain layout. -/
def plain : Piece → String
  | text content => content
  | sub node => node.toTerm.plain

/-- The text of pieces one after the other. -/
def join (pieces : List Piece) : String :=
  String.join (pieces.map plain)

@[simp] theorem join_nil : join [] = "" := rfl

@[simp] theorem join_cons (piece : Piece) (pieces : List Piece) :
    join (piece :: pieces) = piece.plain ++ join pieces := by
  rw [join, List.map_cons, String.join_cons, join]

@[simp] theorem join_append (before after : List Piece) :
    join (before ++ after) = join before ++ join after := by
  rw [join, List.map_append, String.join_append, join, join]

/-- Led nodes are laid out each with the lead before it. -/
theorem join_led (lead : String) (nodes : List Node) :
    join (led lead nodes) =
      String.join ((Node.toTermList nodes).map fun term => lead ++ term.plain) := by
  induction nodes with
  | nil => rfl
  | cons node nodes ih =>
      simp only [led, join_cons, plain, ih, Node.toTermList, List.map_cons, String.join_cons,
        String.append_assoc]

/-- Separated nodes are laid out with the mark between any two of them. -/
theorem join_separated (mark : String) (nodes : List Node) :
    join (separated mark nodes) =
      mark.intercalate ((Node.toTermList nodes).map Term.plain) := by
  cases nodes with
  | nil => rfl
  | cons node nodes =>
      rw [separated, join_cons, join_led, Node.toTermList, List.map_cons, intercalate_cons,
        List.map_map]
      rfl

/-- The nodes among led ones are those nodes. -/
theorem mem_of_sub_mem_led {lead : String} {nodes : List Node} {node : Node}
    (member : sub node ∈ led lead nodes) : node ∈ nodes := by
  induction nodes with
  | nil => exact absurd member List.not_mem_nil
  | cons first nodes ih =>
      simp only [led, List.mem_cons, reduceCtorEq, sub.injEq, false_or] at member
      rcases member with rfl | member
      · exact List.mem_cons_self
      · exact List.mem_cons_of_mem _ (ih member)

/-- The nodes among separated ones are those nodes. -/
theorem mem_of_sub_mem_separated {mark : String} {nodes : List Node} {node : Node}
    (member : sub node ∈ separated mark nodes) : node ∈ nodes := by
  cases nodes with
  | nil => exact absurd member List.not_mem_nil
  | cons first nodes =>
      simp only [separated, List.mem_cons, sub.injEq] at member
      rcases member with rfl | member
      · exact List.mem_cons_self
      · exact List.mem_cons_of_mem _ (mem_of_sub_mem_led member)

end Piece

namespace Node

/-! ## Taking a node apart -/

variable {root node : Node} {rejected : Rejected}

/-- The nodes among the pieces of a node stand in it. -/
theorem contains_of_sub_mem_pieces {part : Node} (member : .sub part ∈ (node.pieces rejected).1) :
    node.Contains part := by
  revert member
  fun_cases pieces node rejected with
  | case1 | case2 | case8 =>
      intro member
      simp at member
  | case3 | case4 | case5 | case7 =>
      intro member
      refine contains_of_mem_children ?_
      simpa [children] using member
  | case6 func argm =>
      intro member
      have separated : .sub part ∈ Piece.separated " " (app func argm).spine := by
        simpa using member
      exact contains_of_mem_spine (Piece.mem_of_sub_mem_separated separated)
  | case9 id name args afterText _ items afterList sugar =>
      intro member
      have separated : .sub part ∈ Piece.separated ", " items := by simpa using member
      exact contains_of_mem_listSugar (by rw [sugar]) (Piece.mem_of_sub_mem_separated separated)
  | case10 id name args =>
      intro member
      have led : .sub part ∈ Piece.led " " args := by simpa using member
      exact contains_of_mem_children (Piece.mem_of_sub_mem_led led)

/-- Taking a node apart leaves sound numbers. -/
theorem Sound.pieces (consistent : Consistent root) (sound : Sound root rejected)
    (inside : root.Contains node) : Sound root (node.pieces rejected).2 := by
  fun_cases Node.pieces node rejected with
  | case8 id name args literal afterText sugar =>
      have := sound.textSugar consistent inside
      rwa [sugar] at this
  | case9 id name args afterText textSugar items afterList sugar =>
      have := sound.textSugar consistent inside
      rw [textSugar] at this
      have := this.listSugar consistent inside
      rwa [sugar] at this
  | case10 id name args afterText textSugar afterList sugar =>
      have := sound.textSugar consistent inside
      rw [textSugar] at this
      have := this.listSugar consistent inside
      rwa [sugar] at this
  | _ => exact sound

/-- With sound numbers a node is taken apart as the plain layout takes its term apart. -/
theorem join_pieces (consistent : Consistent root) (sound : Sound root rejected)
    (inside : root.Contains node) :
    Piece.join (node.pieces rejected).1 = node.toTerm.plain := by
  fun_cases pieces node rejected with
  | case1 name => simp [Piece.plain, toTerm, Term.plain]
  | case2 value => simp [Piece.plain, toTerm, Term.plain]
  | case3 first second expr body =>
      simp [Piece.plain, toTerm, Term.plain, String.append_assoc]
  | case4 name expr body => simp [Piece.plain, toTerm, Term.plain, String.append_assoc]
  | case5 name body => simp [Piece.plain, toTerm, Term.plain, String.append_assoc]
  | case6 func argm =>
      have spine : toTermList (app func argm).spine = (app func argm).toTerm.spine := by
        rw [toTermList_eq_map]
        exact map_toTerm_spineOnto _ _
      rw [toTerm] at spine ⊢
      rw [Term.plain_app, ← spine]
      simp [Piece.plain, Piece.join_separated, String.append_assoc]
  | case7 oper left right => simp [Piece.plain, toTerm, Term.plain, String.append_assoc]
  | case8 id name args literal afterText sugar =>
      -- a string literal
      have view := textSugar_eq sound inside
      rw [sugar, toTerm] at view
      rw [toTerm, Term.plain_of_literal view.symm]
      simp [Piece.plain]
  | case9 id name args afterText textSugar items afterList sugar =>
      -- no literal, but a list, which is looked for with the numbers that the first search left
      have textView := textSugar_eq sound inside
      have listView := listSugar_eq (sound.textSugar consistent inside) inside
      rw [textSugar] at textView listView
      rw [sugar] at listView
      rw [toTerm, Term.plain_of_list textView.symm listView.symm]
      simp [Piece.plain, Piece.join_separated, String.append_assoc]
  | case10 id name args afterText textSugar afterList sugar =>
      -- neither of the two
      have textView := textSugar_eq sound inside
      have listView := listSugar_eq (sound.textSugar consistent inside) inside
      rw [textSugar] at textView listView
      rw [sugar] at listView
      rw [toTerm, Term.plain_of_unsugared textView.symm listView.symm]
      simp [Piece.plain, Piece.join_led, String.append_assoc]

/-! ## A whole run -/

/-- A run writes the plain texts of what stands on its stack after what is written already. -/
theorem printStack_eq (consistent : Consistent root) (sound : Sound root rejected)
    {stack : List Piece} (inside : ∀ node, .sub node ∈ stack → root.Contains node)
    (written : String) :
    printStack stack rejected written = written ++ Piece.join stack := by
  fun_induction printStack stack rejected written with
  | case1 => rw [Piece.join_nil, String.append_empty]
  | case2 rejected written content stack ih =>
      rw [ih sound fun node member => inside node (List.mem_cons_of_mem _ member),
        Piece.join_cons, Piece.plain, String.append_assoc]
  | case3 rejected written node stack step ih =>
      -- the node gives way to its pieces, whose nodes stand in it and so in the root
      have here := inside node List.mem_cons_self
      have partsInside : ∀ part, .sub part ∈ step.1 ++ stack → root.Contains part := by
        intro part member
        rcases List.mem_append.mp member with part_ | later
        · exact here.trans (contains_of_sub_mem_pieces part_)
        · exact inside part (List.mem_cons_of_mem _ later)
      rw [ih (sound.pieces consistent here) partsInside, Piece.join_append, Piece.join_cons,
        join_pieces consistent sound here, Piece.plain]

/-- The printed text of a node is the plain layout of its term, wherever its constructors stand
more than once. -/
theorem render_eq_plain (consistent : Consistent root) : root.render = root.toTerm.plain := by
  have inside : ∀ node, .sub node ∈ [Piece.sub root] → root.Contains node := by
    intro node member
    obtain rfl : node = root := by simpa using member
    exact .refl node
  rw [render, printStack_eq consistent (sound_empty root) inside]
  simp [Piece.plain]

/-! ## Numbered terms -/

/-- The numbers in a node lie from `first` on and before `last`, and equal ones mean equal
constructors. -/
structure Numbered (node : Node) (first last : Nat) : Prop where
  /-- The numbers go up. -/
  le : first ≤ last
  /-- Every number lies between the two. -/
  between : ∀ ⦃id name args⦄, node.Contains (ctr id name args) → first ≤ id ∧ id < last
  /-- Equal numbers mean equal constructors. -/
  consistent : Consistent node

/-- Nodes numbered one after the other. -/
inductive NumberedList : List Node → Nat → Nat → Prop where
  /-- No nodes take no numbers. -/
  | nil (first : Nat) : NumberedList [] first first
  /-- A node and then further nodes. -/
  | cons {node : Node} {nodes : List Node} {first middle last : Nat}
      (head : Numbered node first middle) (tail : NumberedList nodes middle last) :
      NumberedList (node :: nodes) first last

/-- The numbers in nodes go up. -/
theorem NumberedList.le {nodes : List Node} {first last : Nat}
    (numbered : NumberedList nodes first last) : first ≤ last := by
  induction numbered with
  | nil => exact Nat.le_refl _
  | cons head _ ih => exact Nat.le_trans head.le ih

/-- Every number in nodes lies between the first and the last. -/
theorem NumberedList.between {nodes : List Node} {first last : Nat}
    (numbered : NumberedList nodes first last) {node : Node} (member : node ∈ nodes) {id : Nat}
    {name : String} {args : List Node} (inside : node.Contains (ctr id name args)) :
    first ≤ id ∧ id < last := by
  induction numbered with
  | nil => exact absurd member List.not_mem_nil
  | cons head tail ih =>
      rcases List.mem_cons.mp member with rfl | member
      · have := head.between inside
        have := tail.le
        omega
      · have := ih member
        have := head.le
        omega

/-- Equal numbers in nodes mean equal constructors. -/
theorem NumberedList.consistent {nodes : List Node} {first last : Nat}
    (numbered : NumberedList nodes first last) {node node' : Node} (member : node ∈ nodes)
    (member' : node' ∈ nodes) {id : Nat} {name name' : String} {args args' : List Node}
    (inside : node.Contains (ctr id name args)) (inside' : node'.Contains (ctr id name' args')) :
    ctr id name args = ctr id name' args' := by
  induction numbered with
  | nil => exact absurd member List.not_mem_nil
  | cons head tail ih =>
      rcases List.mem_cons.mp member with rfl | later <;>
        rcases List.mem_cons.mp member' with rfl | later'
      · exact head.consistent inside inside'
      · -- one number is before the middle and the other is not
        have := head.between inside
        have := tail.between later' inside'
        omega
      · have := head.between inside'
        have := tail.between later inside
        omega
      · exact ih later later'

/-- A node that is no constructor is numbered as its children are. -/
theorem numbered_of_children {node : Node} {first last : Nat}
    (notCtr : ∀ id name args, node ≠ ctr id name args)
    (numbered : NumberedList node.children first last) : Numbered node first last := by
  have below {id : Nat} {name : String} {args : List Node}
      (inside : node.Contains (ctr id name args)) :
      ∃ child ∈ node.children, child.Contains (ctr id name args) := by
    cases inside with
    | refl => exact absurd rfl (notCtr id name args)
    | child member inside => exact ⟨_, member, inside⟩
  refine ⟨numbered.le, fun id name args inside => ?_,
    fun id name args name' args' inside inside' => ?_⟩
  · obtain ⟨child, member, inside⟩ := below inside
    exact numbered.between member inside
  · obtain ⟨child, member, inside⟩ := below inside
    obtain ⟨child', member', inside'⟩ := below inside'
    exact numbered.consistent member member' inside inside'

/-- A constructor takes the number before those of its arguments. -/
theorem NumberedList.numbered_ctr {args : List Node} {first last : Nat}
    (numbered : NumberedList args (first + 1) last) (name : String) :
    Numbered (ctr first name args) first last := by
  have here_or_below {id : Nat} {name' : String} {args' : List Node}
      (inside : (ctr first name args).Contains (ctr id name' args')) :
      ctr id name' args' = ctr first name args ∨
        ∃ arg ∈ args, arg.Contains (ctr id name' args') := by
    cases inside with
    | refl => exact .inl rfl
    | child member inside => exact .inr ⟨_, member, inside⟩
  have := numbered.le
  refine ⟨by omega, fun id name' args' inside => ?_,
    fun id name₁ args₁ name₂ args₂ inside inside' => ?_⟩
  · rcases here_or_below inside with same | ⟨arg, member, inside⟩
    · cases same
      omega
    · have := numbered.between member inside
      omega
  · rcases here_or_below inside with same | ⟨arg, member, inside⟩ <;>
      rcases here_or_below inside' with same' | ⟨arg', member', inside'⟩
    · rw [same, same']
    · cases same
      have := numbered.between member' inside'
      omega
    · cases same'
      have := numbered.between member inside
      omega
    · exact numbered.consistent member member' inside inside'

mutual

/-- Numbering a term numbers its node. -/
theorem numbered_number (term : Term) (first : Nat) :
    Numbered (number term first).1 first (number term first).2 := by
  cases term with
  | var name => exact numbered_of_children nofun (.nil first)
  | num value => exact numbered_of_children nofun (.nil first)
  | dup name name' expr body =>
      have exprNumbered := numbered_number expr first
      have bodyNumbered := numbered_number body (number expr first).2
      exact numbered_of_children nofun (.cons exprNumbered (.cons bodyNumbered (.nil _)))
  | letIn name expr body =>
      have exprNumbered := numbered_number expr first
      have bodyNumbered := numbered_number body (number expr first).2
      exact numbered_of_children nofun (.cons exprNumbered (.cons bodyNumbered (.nil _)))
  | lam name body =>
      exact numbered_of_children nofun (.cons (numbered_number body first) (.nil _))
  | app func argm =>
      have funcNumbered := numbered_number func first
      have argmNumbered := numbered_number argm (number func first).2
      exact numbered_of_children nofun (.cons funcNumbered (.cons argmNumbered (.nil _)))
  | ctr name args => exact (numberedList_numberList args (first + 1)).numbered_ctr name
  | op2 oper left right =>
      have leftNumbered := numbered_number left first
      have rightNumbered := numbered_number right (number left first).2
      exact numbered_of_children nofun (.cons leftNumbered (.cons rightNumbered (.nil _)))

/-- Numbering terms numbers their nodes one after the other. -/
theorem numberedList_numberList (terms : List Term) (first : Nat) :
    NumberedList (numberList terms first).1 first (numberList terms first).2 := by
  cases terms with
  | nil => exact .nil first
  | cons term terms =>
      exact .cons (numbered_number term first) (numberedList_numberList terms _)

end

/-- In the node of a term every constructor has a number of its own. -/
theorem consistent_ofTerm (term : Term) : Consistent (ofTerm term) :=
  (numbered_number term 0).consistent

end Node

/-- The canonical text of a term is its plain layout. -/
theorem Term.render_eq_plain (term : Term) : term.render = term.plain := by
  rw [render, Node.render_eq_plain (Node.consistent_ofTerm term), Node.toTerm_ofTerm]

end Termbook
