import Mathlib
import Termbook.Node.Sugar
import Termbook.Term.Plain

/-! # Rejected numbers tell the truth

The recognisers of literals share one set of rejected numbers. The set is sound for a node if every
constructor of that node whose number is in it has neither a string literal nor a list. With a sound
set the recognisers find what the plain views of a term find, and they leave a sound set. All this
needs of the numbers is that equal ones mean equal constructors. -/

namespace Termbook

/-! ## The plain views are exact -/

/-- A character has the number it was read from. -/
theorem ofNat_toNat_of_charOfCode? {code : UInt64} {c : Char} (read : charOfCode? code = some c) :
    UInt64.ofNat c.toNat = code := by
  rw [charOfCode?] at read
  split at read
  · next passes =>
      cases read
      have sameNumber : (Char.ofNat code.toNat).toNat = code.toNat := by
        simp only [isCodePoint, Bool.and_eq_true, decide_eq_true_eq, Bool.not_eq_true',
          Bool.and_eq_false_iff, decide_eq_false_iff_not] at passes
        exact toNat_ofNat_of_range (by omega)
      rw [sameNumber, UInt64.ofNat_toNat]
  · contradiction

namespace Term

/-- A term with a text view is the chain of that text. -/
theorem eq_ofText_of_toText? {term : Term} {text : List Char} (view : term.toText? = some text) :
    term = ofText text := by
  fun_induction toText? term generalizing text with
  | case1 code rest c valid ih =>
      obtain ⟨others, inner, rfl⟩ := Option.map_eq_some_iff.mp view
      rw [ih inner]
      change _ = ctr strConsName [num (UInt64.ofNat c.toNat), ofText others]
      rw [ofNat_toNat_of_charOfCode? valid]
  | case4 =>
      cases view
      rfl
  | _ => contradiction

/-- A term with a list view is the chain of that list. -/
theorem eq_ofList_of_toList? {term : Term} {items : List Term}
    (view : term.toList? = some items) : term = ofList items := by
  fun_induction toList? term generalizing items with
  | case1 item rest ih =>
      obtain ⟨others, inner, rfl⟩ := Option.map_eq_some_iff.mp view
      rw [ih inner]
      rfl
  | case3 =>
      cases view
      rfl
  | _ => contradiction

/-- A constructor with another name than those of lists is no list. -/
theorem toList?_eq_none {name : String} (notCons : name ≠ consName) (notNil : name ≠ nilName)
    (args : List Term) : (ctr name args).toList? = none := by
  rw [toList?.eq_def]
  split
  · next same =>
      cases same
      rw [if_neg notCons]
  · next same =>
      cases same
      rw [if_neg notNil]
  · rfl

/-- A constructor with another name than those of texts is no text. -/
theorem toText?_eq_none {name : String} (notCons : name ≠ strConsName) (notNil : name ≠ strNilName)
    (args : List Term) : (ctr name args).toText? = none := by
  rw [toText?.eq_def]
  split
  · next same =>
      cases same
      rw [if_neg notCons]
  · next same =>
      cases same
      rw [if_neg notNil]
  · rfl

end Term

/-- A text has no literal if what is left of it after a character has none. -/
theorem literal?_cons_eq_none {content : List Char} (none_ : literal? content = none) (c : Char) :
    literal? (c :: content) = none := by
  rw [literal?_eq_none_iff] at none_ ⊢
  exact ⟨List.mem_cons_of_mem _ none_.1, List.mem_cons_of_mem _ none_.2⟩

namespace Node

/-! ## Nodes in a node -/

/-- The nodes directly under a node. -/
def children : Node → List Node
  | var _ => []
  | num _ => []
  | dup _ _ expr body => [expr, body]
  | letIn _ expr body => [expr, body]
  | lam _ body => [body]
  | app func argm => [func, argm]
  | ctr _ _ args => args
  | op2 _ left right => [left, right]

/-- `node.Contains part`: the part is the node or stands somewhere in it. -/
inductive Contains : Node → Node → Prop where
  /-- A node contains itself. -/
  | refl (node : Node) : Contains node node
  /-- A node contains what its children contain. -/
  | child {node child part : Node} (member : child ∈ node.children)
      (inside : Contains child part) : Contains node part

/-- What a part contains is contained in the whole. -/
theorem Contains.trans {root node part : Node} (first : root.Contains node)
    (second : node.Contains part) : root.Contains part := by
  induction first with
  | refl => exact second
  | child member _ ih => exact .child member (ih second)

/-- A node contains its children. -/
theorem contains_of_mem_children {node child : Node} (member : child ∈ node.children) :
    node.Contains child :=
  .child member (.refl child)

/-- Equal numbers in a node mean equal constructors. -/
def Consistent (root : Node) : Prop :=
  ∀ ⦃id name args name' args'⦄, root.Contains (ctr id name args) →
    root.Contains (ctr id name' args') → ctr id name args = ctr id name' args'

/-- A node that stands neither for a text with a literal nor for a list. -/
def Unsugared (node : Node) : Prop :=
  node.toTerm.toText?.bind literal? = none ∧ node.toTerm.toList? = none

/-- Rejected numbers are sound for a node if no constructor of the node that bears one of them has
sugar. -/
def Sound (root : Node) (rejected : Rejected) : Prop :=
  ∀ ⦃id name args⦄, id ∈ rejected → root.Contains (ctr id name args) →
    Unsugared (ctr id name args)

/-- No numbers are sound. -/
theorem sound_empty (root : Node) : Sound root ∅ :=
  fun _ _ _ member => absurd member Std.HashSet.not_mem_empty

/-- Sound numbers stay sound with the numbers of further constructors without sugar. -/
theorem Sound.insertMany {root : Node} (consistent : Consistent root) {rejected : Rejected}
    (sound : Sound root rejected) {ids : List Nat}
    (unsugared : ∀ id ∈ ids, ∃ name args, root.Contains (ctr id name args) ∧
      Unsugared (ctr id name args)) :
    Sound root (rejected.insertMany ids) := by
  intro id name args member inside
  rcases Std.HashSet.mem_insertMany_list.mp member with old | new
  · exact sound old inside
  · obtain ⟨name', args', inside', bare⟩ := unsugared id (List.contains_iff_mem.mp new)
    rwa [consistent inside inside']

variable {root node : Node} {rejected : Rejected}

/-! ## Text chains -/

/-- A node that is neither a link nor the end of a text chain has no text. -/
theorem toText?_toTerm_eq_none
    (notLink : ∀ (id : Nat) (name : String) (code : UInt64) (rest : Node),
      node = ctr id name [num code, rest] → False)
    (notEnd : ∀ (id : Nat) (name : String), node = ctr id name [] → False) :
    node.toTerm.toText? = none := by
  cases node with
  | ctr id name args =>
      match args with
      | [] => exact (notEnd id name rfl).elim
      | [item] => cases item <;> rfl
      | item :: rest :: other :: others => cases item <;> rfl
      | [item, rest] =>
          cases item with
          | num code => exact (notLink id name code rest rfl).elim
          | _ => rfl
  | _ => rfl

/-- A closed text chain holds the text of its node. -/
theorem toText?_of_closed (closed : (node.textChain rejected).closed = true) :
    node.toTerm.toText? = some (node.textChain rejected).items := by
  fun_induction textChain rejected node with
  | case2 id code rest fresh c valid ih =>
      change (Term.ctr Term.strConsName [.num code, rest.toTerm]).toText? = _
      rw [Term.toText?, if_pos rfl, valid]
      simp only [ih closed, Option.map_some]
      rfl
  | case6 => rfl
  | _ => contradiction

/-- A broken text chain starts at a node without a string literal. -/
theorem bind_literal?_of_broken (sound : Sound root rejected) (inside : root.Contains node)
    (broken : (node.textChain rejected).closed = false) :
    node.toTerm.toText?.bind literal? = none := by
  fun_induction textChain rejected node with
  | case1 id name code rest member => exact (sound member inside).1
  | case2 id code rest fresh c valid ih =>
      -- what breaks the rest of the chain keeps the whole from having a literal
      have tail := ih (inside.trans (contains_of_mem_children (by simp [children]))) broken
      change (Term.ctr Term.strConsName [.num code, rest.toTerm]).toText?.bind literal? = _
      rw [Term.toText?, if_pos rfl, valid]
      cases view : rest.toTerm.toText? with
      | none => simp
      | some text =>
          rw [view] at tail
          exact literal?_cons_eq_none tail c
  | case3 id code rest fresh invalid =>
      -- the number is that of no character
      change (Term.ctr Term.strConsName [.num code, rest.toTerm]).toText?.bind literal? = _
      rw [Term.toText?, if_pos rfl, invalid]
      rfl
  | case4 id name code rest fresh other =>
      -- a constructor of another name
      change (Term.ctr name [.num code, rest.toTerm]).toText?.bind literal? = _
      rw [Term.toText?, if_neg other]
      rfl
  | case5 id name member => exact (sound member inside).1
  | case6 => contradiction
  | case7 id name fresh other =>
      change (Term.ctr name []).toText?.bind literal? = _
      rw [Term.toText?, if_neg other]
      rfl
  | case8 node notLink notEnd =>
      rw [toText?_toTerm_eq_none notLink notEnd]
      rfl

/-- Each link of a text chain is a constructor in the node from which on the rest of the chain is
found. -/
theorem exists_textLink {index id : Nat} (here : (node.textChain rejected).ids[index]? = some id) :
    ∃ name args, node.Contains (ctr id name args) ∧
      (ctr id name args).toTerm.toList? = none ∧
        (ctr id name args).textChain rejected =
          ⟨(node.textChain rejected).links.drop index, (node.textChain rejected).closed⟩ := by
  fun_induction textChain rejected node generalizing index with
  | case2 id' code rest fresh c valid ih =>
      have whole : (ctr id' Term.strConsName [num code, rest]).textChain rejected =
          (rest.textChain rejected).link id' c := by
        rw [textChain, if_neg fresh, if_pos rfl, valid]
      cases index with
      | zero =>
          obtain rfl : id' = id := by simpa [Chain.ids, Chain.link] using here
          exact ⟨_, _, .refl _, Term.toList?_eq_none (by decide) (by decide) _, whole⟩
      | succ index =>
          obtain ⟨name, args, inside, noList, tail⟩ :=
            ih (by simpa [Chain.ids, Chain.link] using here)
          have member : rest ∈ (ctr id' Term.strConsName [num code, rest]).children := by
            simp [children]
          exact ⟨name, args, (contains_of_mem_children member).trans inside, noList, tail⟩
  | _ => contradiction

/-- What the text recogniser answers is the literal of the node's text. -/
theorem textSugar_eq (sound : Sound root rejected) (inside : root.Contains node) :
    (node.textSugar rejected).1 = node.toTerm.toText?.bind literal? := by
  cases closed : (node.textChain rejected).closed with
  | true =>
      rw [toText?_of_closed closed, Option.bind_some]
      simp only [textSugar, closed, if_true]
      split <;> simp_all
  | false =>
      rw [bind_literal?_of_broken sound inside closed]
      simp only [textSugar, closed, Bool.false_eq_true, if_false]

/-- The text recogniser leaves sound numbers. Of a text with both delimiters exactly those links are
rejected from which on both occur. -/
theorem Sound.textSugar (consistent : Consistent root) (sound : Sound root rejected)
    (inside : root.Contains node) : Sound root (node.textSugar rejected).2 := by
  simp only [Node.textSugar]
  cases closed : (node.textChain rejected).closed with
  | true =>
      simp only [if_true]
      split
      · exact sound
      · refine sound.insertMany consistent fun id member => ?_
        -- a rejected link stands where both delimiters still occur in what is left of the text
        obtain ⟨index, small, here⟩ := List.mem_take_iff_getElem.mp member
        have clash : index < clashLength (node.textChain rejected).items := by omega
        obtain ⟨name, args, within, noList, tail⟩ :=
          exists_textLink (List.getElem?_eq_some_iff.mpr ⟨by omega, here⟩)
        refine ⟨name, args, inside.trans within, ?_, noList⟩
        have closedHere : ((ctr id name args).textChain rejected).closed = true := by
          rw [tail, closed]
        have view := toText?_of_closed closedHere
        have dropped : ((ctr id name args).textChain rejected).items =
            (node.textChain rejected).items.drop index := by
          rw [tail, Chain.items, Chain.items, List.map_drop]
        rw [view, Option.bind_some, dropped]
        exact (literal?_drop_eq_none_iff _ index).mpr clash
  | false =>
      simp only [Bool.false_eq_true, if_false]
      refine sound.insertMany consistent fun id member => ?_
      -- from any link on the chain is as broken as from its start
      obtain ⟨index, here⟩ := List.mem_iff_getElem?.mp member
      obtain ⟨name, args, within, noList, tail⟩ := exists_textLink here
      refine ⟨name, args, inside.trans within, ?_, noList⟩
      exact bind_literal?_of_broken sound (inside.trans within) (by rw [tail, closed])

/-! ## List chains -/

/-- A node that is neither a link nor the end of a list chain is no list. -/
theorem toList?_toTerm_eq_none
    (notLink : ∀ (id : Nat) (name : String) (item rest : Node),
      node = ctr id name [item, rest] → False)
    (notEnd : ∀ (id : Nat) (name : String), node = ctr id name [] → False) :
    node.toTerm.toList? = none := by
  cases node with
  | ctr id name args =>
      match args with
      | [] => exact (notEnd id name rfl).elim
      | [item] => rfl
      | item :: rest :: other :: others => rfl
      | [item, rest] => exact (notLink id name item rest rfl).elim
  | _ => rfl

/-- A closed list chain holds the items of its node. -/
theorem toList?_of_closed (closed : (node.listChain rejected).closed = true) :
    node.toTerm.toList? = some (toTermList (node.listChain rejected).items) := by
  fun_induction listChain rejected node with
  | case2 id item rest fresh ih =>
      change (Term.ctr Term.consName [item.toTerm, rest.toTerm]).toList? = _
      rw [Term.toList?, if_pos rfl, ih closed]
      rfl
  | case5 => rfl
  | _ => contradiction

/-- A broken list chain starts at a node that is no list. -/
theorem toList?_of_broken (sound : Sound root rejected) (inside : root.Contains node)
    (broken : (node.listChain rejected).closed = false) : node.toTerm.toList? = none := by
  fun_induction listChain rejected node with
  | case1 id name item rest member => exact (sound member inside).2
  | case2 id item rest fresh ih =>
      have tail := ih (inside.trans (contains_of_mem_children (by simp [children]))) broken
      change (Term.ctr Term.consName [item.toTerm, rest.toTerm]).toList? = _
      rw [Term.toList?, if_pos rfl, tail]
      rfl
  | case3 id name item rest fresh other =>
      change (Term.ctr name [item.toTerm, rest.toTerm]).toList? = _
      rw [Term.toList?, if_neg other]
  | case4 id name member => exact (sound member inside).2
  | case5 => contradiction
  | case6 id name fresh other =>
      change (Term.ctr name []).toList? = _
      rw [Term.toList?, if_neg other]
  | case7 node notLink notEnd => exact toList?_toTerm_eq_none notLink notEnd

/-- The items of a list chain stand in its node. -/
theorem contains_of_mem_listChain {item : Node}
    (member : item ∈ (node.listChain rejected).items) : node.Contains item := by
  fun_induction listChain rejected node with
  | case2 id first rest fresh ih =>
      rcases List.mem_cons.mp member with rfl | member
      · exact contains_of_mem_children (by simp [children])
      · exact .child (by simp [children]) (ih member)
  | _ => exact absurd member List.not_mem_nil

/-- Each link of a list chain is a constructor in the node from which on the rest of the chain is
found. -/
theorem exists_listLink {index id : Nat} (here : (node.listChain rejected).ids[index]? = some id) :
    ∃ name args, node.Contains (ctr id name args) ∧
      (ctr id name args).toTerm.toText? = none ∧
        ((ctr id name args).listChain rejected).closed = (node.listChain rejected).closed := by
  fun_induction listChain rejected node generalizing index with
  | case2 id' item rest fresh ih =>
      have whole : (ctr id' Term.consName [item, rest]).listChain rejected =
          (rest.listChain rejected).link id' item := by
        rw [listChain, if_neg fresh, if_pos rfl]
      cases index with
      | zero =>
          obtain rfl : id' = id := by simpa [Chain.ids, Chain.link] using here
          exact ⟨_, _, .refl _, Term.toText?_eq_none (by decide) (by decide) _, by rw [whole]⟩
      | succ index =>
          obtain ⟨name, args, inside, noText, tail⟩ :=
            ih (by simpa [Chain.ids, Chain.link] using here)
          exact ⟨name, args, .child (by simp [children]) inside, noText, tail⟩
  | _ => contradiction

/-- What the list recogniser answers are the items of the node. -/
theorem listSugar_eq (sound : Sound root rejected) (inside : root.Contains node) :
    (node.listSugar rejected).1.map toTermList = node.toTerm.toList? := by
  cases closed : (node.listChain rejected).closed with
  | true =>
      rw [toList?_of_closed closed]
      simp only [listSugar, closed, if_true, Option.map_some]
  | false =>
      rw [toList?_of_broken sound inside closed]
      simp only [listSugar, closed, Bool.false_eq_true, if_false, Option.map_none]

/-- The items that the list recogniser answers stand in the node. -/
theorem contains_of_mem_listSugar {items : List Node} {item : Node}
    (sugar : (node.listSugar rejected).1 = some items) (member : item ∈ items) :
    node.Contains item := by
  simp only [listSugar] at sugar
  split at sugar
  · cases sugar
    exact contains_of_mem_listChain member
  · contradiction

/-- The list recogniser leaves sound numbers. -/
theorem Sound.listSugar (consistent : Consistent root) (sound : Sound root rejected)
    (inside : root.Contains node) : Sound root (node.listSugar rejected).2 := by
  simp only [Node.listSugar]
  cases closed : (node.listChain rejected).closed with
  | true => exact sound
  | false =>
      refine sound.insertMany consistent fun id member => ?_
      obtain ⟨index, here⟩ := List.mem_iff_getElem?.mp member
      obtain ⟨name, args, within, noText, tail⟩ := exists_listLink here
      refine ⟨name, args, inside.trans within, ?_, ?_⟩
      · rw [noText]
        rfl
      · exact toList?_of_broken sound (inside.trans within) (by rw [tail, closed])

end Node

end Termbook
