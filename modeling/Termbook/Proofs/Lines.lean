import Mathlib
import Termbook.Text.Location

/-! # Lines and columns

A location says as much as an index does. It is found by walking through the text, and each step
goes on to a later location: further right on the same line, or to the start of the next one. So two
indices never share a location, also beyond the end of the text, and an index of the text is told by
its location and the lengths of the lines up to it. -/

namespace Termbook

namespace Location

variable {place other : Location} {text : List Char}

/-! ## Order -/

/-- A location comes before another one: it is on an earlier line, or further left on the same
line. -/
def Before (place other : Location) : Prop :=
  place.line < other.line ∨ place.line = other.line ∧ place.column < other.column

instance : IsTrans Location Before where
  trans place other last first second := by
    simp only [Before] at *
    omega

/-- The location after a character comes later. -/
theorem before_next (place : Location) (c : Char) : place.Before (place.next c) := by
  rw [next]
  split
  · exact .inl (Nat.lt_succ_self _)
  · exact .inr ⟨rfl, Nat.lt_succ_self _⟩

/-! ## Walking on -/

/-- One more step of a walk passes the character that stands there; beyond the end of the text it
goes right. -/
theorem walk_succ (place : Location) (text : List Char) (count : Nat) :
    walk place text (count + 1) =
      match text[count]? with
      | some c => (walk place text count).next c
      | none => ⟨(walk place text count).line, (walk place text count).column + 1⟩ := by
  induction text generalizing place count with
  | nil => cases count <;> rfl
  | cons c rest ih =>
      cases count with
      | zero => cases rest <;> rfl
      | succ count => exact ih (place.next c) count

/-- The location of the next index. -/
theorem ofIndex_succ (text : List Char) (i : Nat) :
    ofIndex text (i + 1) =
      match text[i]? with
      | some c => (ofIndex text i).next c
      | none => ⟨(ofIndex text i).line, (ofIndex text i).column + 1⟩ :=
  walk_succ first text i

/-- The location of the next index comes later. -/
theorem before_ofIndex_succ (text : List Char) (i : Nat) :
    (ofIndex text i).Before (ofIndex text (i + 1)) := by
  rw [ofIndex_succ]
  cases text[i]? with
  | some c => exact before_next _ c
  | none => exact .inr ⟨rfl, Nat.lt_succ_self _⟩

/-- The locations of a text come in the order of its indices. -/
theorem before_of_lt (text : List Char) {i j : Nat} (less : i < j) :
    (ofIndex text i).Before (ofIndex text j) :=
  Nat.rel_of_forall_rel_succ_of_lt Before (before_ofIndex_succ text) less

/-- A location is found by looking back from its index: the line is one more than the number of
newlines before it, and the column is counted from behind the last of them. -/
theorem ofIndex_eq_lookBack (text : List Char) (i : Nat) :
    ofIndex text i =
      ⟨(text.take i).count '\n' + 1, i - ((text.take i).rdropWhile (· != '\n')).length + 1⟩ := by
  induction i with
  | zero => simp [first]
  | succ i ih =>
      have atMost : ((text.take i).rdropWhile (· != '\n')).length ≤ i :=
        Nat.le_trans (List.rdropWhile_prefix _ _).length_le (List.length_take_le i text)
      rw [ofIndex_succ, List.take_add_one]
      cases here : text[i]? with
      | none =>
          rw [ih, Option.toList_none, List.append_nil, Nat.succ_sub atMost]
      | some c =>
          have inside : (text.take i).length = i :=
            List.length_take_of_le (Nat.le_of_lt (List.getElem?_eq_some_iff.mp here).1)
          simp only [ih, next, Option.toList_some, List.rdropWhile_concat]
          by_cases newline : c = '\n'
          · -- the line ends with this character, so the next index starts a line
            simp [newline, inside]
          · simp [newline, Nat.succ_sub atMost]

/-! ## Lines -/

/-- A walk that stays in the text stops on one of the lines of the text, behind the lines before it
and a part of its own. Only on its first line does it count on from the column where it started. -/
theorem exists_line_of_walk (place : Location) (text : List Char) {count : Nat}
    (within : count ≤ text.length) :
    ∃ earlier own later columns, text.splitOn '\n' = earlier ++ own :: later ∧
      columns ≤ own.length ∧ (earlier.map (·.length + 1)).sum + columns = count ∧
      walk place text count =
        ⟨place.line + earlier.length,
          (if earlier = [] then place.column else first.column) + columns⟩ := by
  induction text generalizing place count with
  | nil =>
      obtain rfl := Nat.le_zero.mp within
      exact ⟨[], [], [], 0, List.splitOn_nil _, by simp [walk]⟩
  | cons c rest ih =>
      cases count with
      | zero =>
          obtain ⟨own, later, split⟩ :=
            List.exists_cons_of_ne_nil (List.splitOn_ne_nil '\n' (c :: rest))
          exact ⟨[], own, later, 0, split, by simp [walk]⟩
      | succ count =>
          obtain ⟨earlier, own, later, columns, split, inside, total, stop⟩ :=
            ih (place.next c) (Nat.le_of_succ_le_succ within)
          rw [walk, stop, List.splitOn_cons_eq_if_modifyHead, split, next]
          by_cases newline : c = '\n'
          · -- an empty line has been passed, whose newline is this character
            refine ⟨[] :: earlier, own, later, columns, by simp [newline], inside, ?_, ?_⟩
            · simp only [List.map_cons, List.length_nil, List.sum_cons]
              omega
            · simp only [newline, if_true, List.length_cons, first]
              simp only [ite_self, reduceCtorEq, if_false, mk.injEq, and_true]
              omega
          · cases earlier with
            | nil =>
                -- the walk stops on its first line, which is longer by this character
                refine ⟨[], c :: own, later, columns + 1, by simp [newline], ?_, ?_, ?_⟩
                · simpa using inside
                · simpa using total
                · simp [newline]
                  omega
            | cons line earlier =>
                -- the first line, longer by this character, has been passed with the others
                refine ⟨(c :: line) :: earlier, own, later, columns, by simp [newline], inside,
                  ?_, ?_⟩
                · simp only [List.map_cons, List.length_cons, List.sum_cons] at total ⊢
                  omega
                · simp [newline]

/-- The locations of a text come in the order of its indices, so no two indices share one. If the
text is split into its lines, the location of an index of the text is on one of them, at most one
column behind its end, and the index is what lies before it: the earlier lines, each with its
newline, and the columns to the left. From any index, also beyond the end, the location is found by
counting the newlines before it and looking back for the last of them. -/
theorem index_of_location (text : List Char) :
    (∀ i j, i < j → (ofIndex text i).Before (ofIndex text j)) ∧
      (∀ i line column, i ≤ text.length → ofIndex text i = ⟨line, column⟩ →
        (1 ≤ line ∧ line ≤ (text.splitOn '\n').length) ∧
        ∃ earlier own later, text.splitOn '\n' = earlier ++ own :: later ∧
          earlier.length = line - 1 ∧ (1 ≤ column ∧ column - 1 ≤ own.length) ∧
          (earlier.map (·.length + 1)).sum + (column - 1) = i) ∧
      ∀ i, ofIndex text i =
        ⟨(text.take i).count '\n' + 1,
          i - ((text.take i).rdropWhile (· != '\n')).length + 1⟩ := by
  refine ⟨fun i j => before_of_lt text, fun i line column within located => ?_,
    ofIndex_eq_lookBack text⟩
  obtain ⟨earlier, own, later, columns, split, inside, total, stop⟩ :=
    exists_line_of_walk first text within
  obtain ⟨rfl, rfl⟩ : line = earlier.length + 1 ∧ column = columns + 1 := by
    have same := located.symm.trans stop
    simp only [first, ite_self, mk.injEq] at same
    omega
  refine ⟨⟨by omega, ?_⟩, earlier, own, later, split, rfl, ⟨by omega, inside⟩, total⟩
  simp only [split, List.length_append, List.length_cons]
  omega

/-- On the newline that ends an empty second line, and just behind it. -/
theorem index_of_location_emptyLine :
    (2 < 3 ∧ (ofIndex ['a', '\n', '\n'] 2).Before (ofIndex ['a', '\n', '\n'] 3)) ∧
      2 ≤ ['a', '\n', '\n'].length ∧ ofIndex ['a', '\n', '\n'] 2 = ⟨2, 1⟩ ∧
      (1 ≤ 2 ∧ 2 ≤ (['a', '\n', '\n'].splitOn '\n').length) ∧
      ∃ earlier own later, ['a', '\n', '\n'].splitOn '\n' = earlier ++ own :: later ∧
        earlier.length = 2 - 1 ∧ (1 ≤ 1 ∧ 1 - 1 ≤ own.length) ∧
        (earlier.map (·.length + 1)).sum + (1 - 1) = 2 :=
  have all := index_of_location ['a', '\n', '\n']
  ⟨⟨by decide, all.1 2 3 (by decide)⟩, by decide, rfl, all.2.1 2 2 1 (by decide) rfl⟩

end Location

end Termbook
