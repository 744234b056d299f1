/-! # String literals

A literal stands between two equal delimiters, the double quote or the backtick, and holds every
other character as it is: nothing is escaped. So a text that contains both delimiters has none. -/

namespace Termbook

/-- The delimiter of choice. -/
def doubleQuote : Char := '\x22'

/-- The delimiter for text that holds a double quote. -/
def backtick : Char := '\x60'

/-- Whether a character opens a string literal. -/
def isDelimiter (c : Char) : Bool :=
  c == doubleQuote || c == backtick

/-- The literal of a text: in double quotes if it holds none, else in backticks if it holds
none. -/
def literal? (content : List Char) : Option (List Char) :=
  if doubleQuote ∉ content then some (doubleQuote :: content ++ [doubleQuote])
  else if backtick ∉ content then some (backtick :: content ++ [backtick])
  else none

/-- The number of characters from which on both delimiters still occur. They stand at the front of
the text, and from none of them on has the text a literal. -/
def clashLength (content : List Char) : Nat :=
  let reversed := content.reverse
  content.length - max (reversed.idxOf doubleQuote) (reversed.idxOf backtick)

/-- A text has no literal if and only if both delimiters occur in it. -/
theorem literal?_eq_none_iff {content : List Char} :
    literal? content = none ↔ doubleQuote ∈ content ∧ backtick ∈ content := by
  unfold literal?
  split <;> rename_i double
  · simp [double]
  · split <;> rename_i back <;> simp_all

/-- A character still occurs from an index on if and only if the index is not past its last
occurrence. -/
theorem mem_drop_iff {α : Type} [BEq α] [LawfulBEq α] (content : List α) (a : α)
    (index : Nat) :
    a ∈ content.drop index ↔ index < content.length - content.reverse.idxOf a := by
  induction content generalizing index with
  | nil => simp
  | cons c rest ih =>
      have last : (c :: rest).reverse.idxOf a =
          if a ∈ rest then rest.reverse.idxOf a
          else if c == a then rest.length else rest.length + 1 := by
        simp only [List.reverse_cons, List.idxOf_append, List.mem_reverse, List.length_reverse,
          List.idxOf_cons, List.idxOf_nil]
        split
        · rfl
        · cases c == a <;> simp [Nat.add_comm]
      have inRest : a ∈ rest → rest.reverse.idxOf a < rest.length := fun member => by
        simpa using List.idxOf_lt_length_iff.mpr (List.mem_reverse.mpr member)
      have notInRest : a ∉ rest → rest.length ≤ rest.reverse.idxOf a := fun absent =>
        Nat.le_of_not_lt fun short =>
          absent (List.mem_reverse.mp (List.idxOf_lt_length_iff.mp (by simpa using short)))
      rw [last, List.length_cons]
      cases index with
      | zero =>
          by_cases member : a ∈ rest
          · have := inRest member
            simp only [List.drop_zero, List.mem_cons, member, or_true, if_true, true_iff]
            omega
          · by_cases here : c = a
            · simp [here, member]
            · have there : ¬a = c := fun equal => here equal.symm
              simp [member, here, there]
      | succ index =>
          rw [List.drop_succ_cons, ih]
          by_cases member : a ∈ rest
          · simp only [member, if_true]; have := inRest member; omega
          · have := notInRest member
            simp only [member, if_false]; split <;> omega

/-- From an index on a text has no literal if and only if the index lies in the clash. -/
theorem literal?_drop_eq_none_iff (content : List Char) (index : Nat) :
    literal? (content.drop index) = none ↔ index < clashLength content := by
  rw [literal?_eq_none_iff, mem_drop_iff, mem_drop_iff, clashLength]
  omega

end Termbook
