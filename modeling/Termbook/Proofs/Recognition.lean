import Termbook.Proofs.Afresh

/-! # The recognisers invert the builders

A node is recognised as a text exactly if its term is the chain that `Term.ofCodePoints` builds of
code points that are those of a text with a literal, and as a list exactly if it is the chain that
`Term.ofList` builds. The builder of texts takes surrogates as well, which stand for no character:
a chain with one of them in it is not recognised. This holds whatever has been rejected before, as
long as each rejected number is that of a constructor in which the recognisers, started from
scratch, find nothing; and such sets are all that calls of the recognisers ever leave. -/

namespace Termbook

/-! ## Literals -/

/-- The delimiter of the literal of a text. -/
def delimiterFor (codes : List CodePoint) : CodePoint :=
  if .ofChar doubleQuote ∈ codes then .ofChar backtick else .ofChar doubleQuote

/-- A text has a character where its code points have that of the character. -/
theorem ofChar_mem_map_iff {c : Char} {text : List Char} :
    CodePoint.ofChar c ∈ text.map .ofChar ↔ c ∈ text := by
  simp [CodePoint.ofChar_inj]

/-- The code points of texts are those with no surrogate among them. -/
theorem exists_map_ofChar_eq_iff {codes : List CodePoint} :
    (∃ text : List Char, text.map .ofChar = codes) ↔ ∀ code ∈ codes, code.isSurrogate = false := by
  rw [← Set.mem_range, Set.range_list_map]
  exact forall₂_congr fun _ _ => CodePoint.exists_ofChar_eq_iff

/-- The literals of a text: the one between its delimiters, unless both delimiters occur in it. -/
theorem literal?_eq_some_iff {text : List Char} {answer : List CodePoint} :
    (literal? text).map (·.map .ofChar) = some answer ↔
      ¬(.ofChar doubleQuote ∈ text.map CodePoint.ofChar ∧
          .ofChar backtick ∈ text.map CodePoint.ofChar) ∧
        answer = delimiterFor (text.map .ofChar) :: text.map .ofChar ++
          [delimiterFor (text.map .ofChar)] := by
  unfold literal? delimiterFor
  simp only [ofChar_mem_map_iff]
  by_cases double : doubleQuote ∈ text
  · by_cases back : backtick ∈ text
    · simp [double, back]
    · simp [double, back, eq_comm]
  · simp [double, eq_comm]

namespace Term

/-- The text views are those of the chains that are built of texts. -/
theorem toText?_eq_some_iff {term : Term} {text : List Char} :
    term.toText? = some text ↔ term = ofText text :=
  ⟨eq_ofText_of_toText?, fun built => built ▸ toText?_ofText text⟩

/-- The list views are those of the chains that are built of lists. -/
theorem toList?_eq_some_iff {term : Term} {items : List Term} :
    term.toList? = some items ↔ term = ofList items :=
  ⟨eq_ofList_of_toList?, fun built => built ▸ toList?_ofList items⟩

end Term

namespace Node

variable {root node : Node} {rejected : Rejected}

/-! ## Warranted numbers -/

/-- Nothing is found in the node: started from scratch, neither recogniser answers. -/
def Barren (node : Node) : Prop :=
  (node.textSugar ∅).1 = none ∧ (node.listSugar ∅).1 = none

/-- Each rejected number is that of a constructor somewhere in the root in which nothing is
found. -/
def Warranted (root : Node) (rejected : Rejected) : Prop :=
  ∀ id ∈ rejected, ∃ name args, root.Contains (ctr id name args) ∧ Barren (ctr id name args)

/-- Nothing is found in a node exactly if its term has neither sugar. -/
theorem barren_iff_unsugared : node.Barren ↔ node.Unsugared := by
  unfold Barren Unsugared
  rw [textSugar_empty, ← listSugar_empty, Option.map_eq_none_iff]

/-- Before anything is rejected there is nothing to warrant. -/
theorem warranted_empty (root : Node) : Warranted root ∅ :=
  fun _ member => absurd member Std.HashSet.not_mem_empty

/-- Warranted numbers are sound where equal numbers mean equal constructors. -/
theorem Warranted.sound (consistent : root.Consistent) (warranted : Warranted root rejected) :
    Sound root rejected := by
  intro id name args member inside
  obtain ⟨name', args', inside', barren⟩ := warranted id member
  rw [consistent inside inside']
  exact barren_iff_unsugared.mp barren

/-- Sound numbers are warranted if the root has a constructor for each of them. -/
theorem Sound.warranted (sound : Sound root rejected)
    (borne : ∀ id ∈ rejected, ∃ name args, root.Contains (ctr id name args)) :
    Warranted root rejected := by
  intro id member
  obtain ⟨name, args, inside⟩ := borne id member
  exact ⟨name, args, inside, barren_iff_unsugared.mpr (sound member inside)⟩

/-! ## What a call rejects -/

/-- What the text recogniser rejects anew are numbers of constructors in the node. -/
theorem mem_textSugar {id : Nat} (member : id ∈ (node.textSugar rejected).2) :
    id ∈ rejected ∨ ∃ name args, node.Contains (ctr id name args) := by
  have inChain (here : id ∈ (node.textChain rejected).ids) :
      ∃ name args, node.Contains (ctr id name args) := by
    obtain ⟨index, here⟩ := List.mem_iff_getElem?.mp here
    obtain ⟨name, args, inside, -⟩ := exists_textLink here
    exact ⟨name, args, inside⟩
  simp only [textSugar] at member
  split at member
  · split at member
    · exact .inl member
    · refine (Std.HashSet.mem_insertMany_list.mp member).imp_right fun new => inChain ?_
      exact List.mem_of_mem_take (List.contains_iff_mem.mp new)
  · exact (Std.HashSet.mem_insertMany_list.mp member).imp_right fun new =>
      inChain (List.contains_iff_mem.mp new)

/-- What the list recogniser rejects anew are numbers of constructors in the node. -/
theorem mem_listSugar {id : Nat} (member : id ∈ (node.listSugar rejected).2) :
    id ∈ rejected ∨ ∃ name args, node.Contains (ctr id name args) := by
  simp only [listSugar] at member
  split at member
  · exact .inl member
  · refine (Std.HashSet.mem_insertMany_list.mp member).imp_right fun new => ?_
    obtain ⟨index, here⟩ := List.mem_iff_getElem?.mp (List.contains_iff_mem.mp new)
    obtain ⟨name, args, inside, -⟩ := exists_listLink here
    exact ⟨name, args, inside⟩

/-- A call of the text recogniser within the root leaves warranted numbers. -/
theorem Warranted.textSugar (consistent : root.Consistent) (warranted : Warranted root rejected)
    (inside : root.Contains node) : Warranted root (node.textSugar rejected).2 := by
  refine ((warranted.sound consistent).textSugar consistent inside).warranted fun id member => ?_
  rcases mem_textSugar member with old | ⟨name, args, within⟩
  · obtain ⟨name, args, within, -⟩ := warranted id old
    exact ⟨name, args, within⟩
  · exact ⟨name, args, inside.trans within⟩

/-- A call of the list recogniser within the root leaves warranted numbers. -/
theorem Warranted.listSugar (consistent : root.Consistent) (warranted : Warranted root rejected)
    (inside : root.Contains node) : Warranted root (node.listSugar rejected).2 := by
  refine ((warranted.sound consistent).listSugar consistent inside).warranted fun id member => ?_
  rcases mem_listSugar member with old | ⟨name, args, within⟩
  · obtain ⟨name, args, within, -⟩ := warranted id old
    exact ⟨name, args, within⟩
  · exact ⟨name, args, inside.trans within⟩

/-! ## Runs of calls -/

/-- The rejected numbers that calls of the recognisers on nodes of the root can leave, begun with
none. -/
inductive Remembered (root : Node) : Rejected → Prop where
  /-- No call has been made. -/
  | fresh : Remembered root ∅
  /-- The last call was one of the text recogniser. -/
  | text {node : Node} {rejected : Rejected} (inside : root.Contains node)
      (before : Remembered root rejected) : Remembered root (node.textSugar rejected).2
  /-- The last call was one of the list recogniser. -/
  | list {node : Node} {rejected : Rejected} (inside : root.Contains node)
      (before : Remembered root rejected) : Remembered root (node.listSugar rejected).2

/-- However many calls have been made, what they rejected is warranted. -/
theorem Remembered.warranted (consistent : root.Consistent)
    (remembered : Remembered root rejected) : Warranted root rejected := by
  induction remembered with
  | fresh => exact warranted_empty root
  | text inside _ ih => exact ih.textSugar consistent inside
  | list inside _ ih => exact ih.listSugar consistent inside

/-! ## Exactness -/

/-- The text recogniser answers the literals of the texts of which the term is built. -/
theorem textSugar_eq_some_iff (sound : Sound root rejected) (inside : root.Contains node)
    (answer : List CodePoint) :
    (node.textSugar rejected).1.map (·.map .ofChar) = some answer ↔
      ∃ codes, (∀ code ∈ codes, code.isSurrogate = false) ∧
        ¬(.ofChar doubleQuote ∈ codes ∧ .ofChar backtick ∈ codes) ∧
        node.toTerm = .ofCodePoints codes ∧
        answer = delimiterFor codes :: codes ++ [delimiterFor codes] := by
  rw [textSugar_eq sound inside, Option.map_bind, Option.bind_eq_some_iff]
  simp only [Function.comp_apply, Term.toText?_eq_some_iff, literal?_eq_some_iff, Term.ofText]
  constructor
  · rintro ⟨text, built, noClash, rfl⟩
    exact ⟨_, exists_map_ofChar_eq_iff.mp ⟨text, rfl⟩, noClash, built, rfl⟩
  · rintro ⟨codes, noSurrogate, noClash, built, rfl⟩
    obtain ⟨text, rfl⟩ := exists_map_ofChar_eq_iff.mpr noSurrogate
    exact ⟨text, built, noClash, rfl⟩

/-- The list recogniser answers the items of which the term is built. -/
theorem listSugar_eq_some_iff (sound : Sound root rejected) (inside : root.Contains node)
    (items : List Term) :
    (node.listSugar rejected).1.map (·.map toTerm) = some items ↔ node.toTerm = .ofList items := by
  rw [← Term.toList?_eq_some_iff, ← listSugar_eq sound inside, funext toTermList_eq_map]

/-- Both recognisers are exact inverses of the builders, that of texts where no surrogate is among
the code points, whatever warranted numbers have been rejected before, and both leave warranted
numbers. Where a term is not built so, they answer nothing. -/
theorem sugar_inverts_builders (root node : Node) (consistent : root.Consistent)
    (inside : root.Contains node) (rejected : Rejected) (warranted : Warranted root rejected) :
    (∀ answer, (node.textSugar rejected).1.map (·.map .ofChar) = some answer ↔
      ∃ codes, (∀ code ∈ codes, code.isSurrogate = false) ∧
        ¬(.ofChar doubleQuote ∈ codes ∧ .ofChar backtick ∈ codes) ∧
        node.toTerm = .ofCodePoints codes ∧
        answer = delimiterFor codes :: codes ++ [delimiterFor codes]) ∧
    ((node.textSugar rejected).1 = none ↔
      ∀ codes, node.toTerm = .ofCodePoints codes →
        (∃ code ∈ codes, code.isSurrogate = true) ∨
          (.ofChar doubleQuote ∈ codes ∧ .ofChar backtick ∈ codes)) ∧
    (∀ items, (node.listSugar rejected).1.map (·.map toTerm) = some items ↔
      node.toTerm = .ofList items) ∧
    ((node.listSugar rejected).1 = none ↔ ∀ items, node.toTerm ≠ .ofList items) ∧
    Warranted root (node.textSugar rejected).2 ∧ Warranted root (node.listSugar rejected).2 := by
  have sound := warranted.sound consistent
  have texts := textSugar_eq_some_iff sound inside
  have lists := listSugar_eq_some_iff sound inside
  refine ⟨texts, ?_, lists, ?_, warranted.textSugar consistent inside,
    warranted.listSugar consistent inside⟩
  · rw [← Option.map_eq_none_iff (f := fun text : List Char => text.map CodePoint.ofChar),
      Option.eq_none_iff_forall_ne_some]
    constructor
    · intro silent codes built
      by_contra! answered
      obtain ⟨noSurrogate, noClash⟩ := answered
      refine silent _ ((texts _).mpr ⟨codes, ?_, fun clash => noClash clash.1 clash.2, built, rfl⟩)
      exact fun code member => Bool.eq_false_iff.mpr (noSurrogate code member)
    · intro refused answer answered
      obtain ⟨codes, noSurrogate, noClash, built, -⟩ := (texts answer).mp answered
      rcases refused codes built with ⟨code, member, surrogate⟩ | clash
      · exact absurd (noSurrogate code member) (by rw [surrogate]; decide)
      · exact noClash clash
  · rw [← Option.map_eq_none_iff (f := fun nodes : List Node => nodes.map toTerm),
      Option.eq_none_iff_forall_ne_some]
    exact forall_congr' fun items => not_congr (lists items)

/-- A text with both delimiters, whose first link a call has rejected: the call on what is left of
it past the backtick still answers. -/
theorem sugar_inverts_builders_front :
    let node := ctr 1 Term.strConsName
      [num 34, ctr 2 Term.strConsName [num 97, ctr 3 Term.strNilName []]]
    let root := ctr 0 Term.strConsName [num 96, node]
    let rejected := (root.textSugar ∅).2
    root.Consistent ∧ root.Contains node ∧ Warranted root rejected ∧ 0 ∈ rejected ∧
      (node.textSugar rejected).1 = some [backtick, doubleQuote, 'a', backtick] ∧
      Warranted root (node.listSugar rejected).2 := by
  intro node root rejected
  have numbered : root = ofTerm (.ofText [backtick, doubleQuote, 'a']) := rfl
  have consistent : root.Consistent := numbered ▸ consistent_ofTerm _
  have inside : root.Contains node := contains_of_mem_children (by simp [root, children])
  have warranted : Warranted root rejected :=
    (warranted_empty root).textSugar consistent (.refl root)
  have first : 0 ∈ rejected := by
    have chain : root.textChain ∅ = ⟨[(0, backtick), (1, doubleQuote), (2, 'a')], true⟩ := by
      simp only [root, node, textChain, Std.HashSet.contains_empty, Bool.false_eq_true, if_false,
        if_true]
      rfl
    have clash : literal? (root.textChain ∅).items = none := by rw [chain]; decide
    have front : (root.textChain ∅).ids.take (clashLength (root.textChain ∅).items) = [0] := by
      rw [chain]
      decide
    simp only [rejected, textSugar, clash, front]
    simp [chain]
  have inverts := sugar_inverts_builders root node consistent inside rejected warranted
  refine ⟨consistent, inside, warranted, first, ?_, inverts.2.2.2.2.2⟩
  have injective : Function.Injective CodePoint.ofChar := fun _ _ => CodePoint.ofChar_inj.mp
  refine Option.map_injective (List.map_injective_iff.mpr injective) ?_
  exact (inverts.1 _).mpr
    ⟨[doubleQuote, 'a'].map .ofChar, by decide, by decide, rfl, by decide⟩

/-- A lone surrogate: the builder makes its chain, in which nothing is recognised. So it is not true
of all code points without both delimiters that their chain is answered between delimiters. -/
theorem surrogate_not_recognised :
    let codes : List CodePoint := [⟨0xD800, by decide⟩]
    let node := ofTerm (.ofCodePoints codes)
    let answer := delimiterFor codes :: codes ++ [delimiterFor codes]
    node.Consistent ∧ Warranted node ∅ ∧
      ¬((node.textSugar ∅).1.map (·.map .ofChar) = some answer ↔
        ∃ codes, ¬(.ofChar doubleQuote ∈ codes ∧ .ofChar backtick ∈ codes) ∧
          node.toTerm = .ofCodePoints codes ∧
          answer = delimiterFor codes :: codes ++ [delimiterFor codes]) := by
  intro codes node answer
  refine ⟨consistent_ofTerm _, warranted_empty node, fun claimed => ?_⟩
  have built : node.toTerm = .ofCodePoints codes := toTerm_ofTerm _
  have silent : (node.textSugar ∅).1 = none := by
    rw [textSugar_empty, built]
    decide
  have answered := claimed.mpr ⟨codes, by decide, built, rfl⟩
  rw [silent] at answered
  contradiction

end Node

end Termbook
