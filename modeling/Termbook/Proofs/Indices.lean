import Termbook.Proofs.Skipping

/-! # Tokens by index

A cursor holds no text before its place, so no parser could look back. Here the tokens are told once
more, as functions of a whole text and an index into it, which have all of the text at hand:
scanners move the index along the text, one character after the other, and a token answers another
index of the same text. Each parser of a token answers as its function of the text and the index
does. So it is true of these functions, too, that what stands before the index makes no difference:
behind any other text they answer alike, with every index shifted by its length. -/

namespace Termbook

open Termbook.Parser
open Cursor (ofIndex)

variable {α : Type} {text pattern : List Char} {count i j : Nat}

/-! ## Scanners -/

/-- The index behind the run of characters that pass a test. -/
def runEnd (test : Char → Bool) (text : List Char) (i : Nat) : Nat :=
  if inside : i < text.length then
    if test text[i] then runEnd test text (i + 1) else i
  else i
termination_by text.length - i

/-- Whether a text stands at an index. Beyond the end not even the empty text does. -/
def standsAt (pattern text : List Char) (i : Nat) : Bool :=
  i ≤ text.length && pattern == (text.drop i).take pattern.length

/-- The index behind the character at an index; at the end the same index. -/
def charEnd (text : List Char) (i : Nat) : Nat :=
  if i < text.length then i + 1 else i

/-- The index behind the comment at an index. -/
def commentEnd (text : List Char) (i : Nat) : Nat :=
  if standsAt commentMark text i then runEnd (· != '\n') text i else i

/-- The index behind the blanks at an index and the comment after them. -/
def turnEnd (text : List Char) (i : Nat) : Nat :=
  commentEnd text (runEnd isBlank text i)

/-- A run is as long as that of what is left of the text. -/
theorem runEnd_eq (test : Char → Bool) (text : List Char) (i : Nat) :
    runEnd test text i = i + ((text.drop i).takeWhile test).length := by
  fun_induction runEnd test text i with
  | case1 i inside passes ih =>
      rw [ih, List.drop_eq_getElem_cons inside, List.takeWhile_cons_of_pos passes,
        List.length_cons]
      omega
  | case2 i inside fails =>
      rw [List.drop_eq_getElem_cons inside, List.takeWhile_cons_of_neg fails]
      rfl
  | case3 i outside =>
      rw [List.drop_eq_nil_of_le (Nat.le_of_not_lt outside)]
      rfl

/-- The characters of a run are those between its two ends. -/
theorem takeWhile_drop_eq (test : Char → Bool) (text : List Char) (i : Nat) :
    (text.drop i).takeWhile test = (text.take (runEnd test text i)).drop i := by
  rw [runEnd_eq, List.drop_take, Nat.add_sub_cancel_left]
  exact List.prefix_iff_eq_take.mp (List.takeWhile_prefix test)

namespace Cursor

/-- What is left at the place of an index. -/
theorem rest_ofIndex (text : List Char) (i : Nat) : (ofIndex text i).rest = text.drop i := rfl

/-- Advancing over a run leads to its end. -/
theorem advance_run (test : Char → Bool) (text : List Char) (i : Nat) :
    (ofIndex text i).advance ((text.drop i).takeWhile test).length =
      ofIndex text (runEnd test text i) := by
  have short := (List.takeWhile_prefix test (l := text.drop i)).length_le
  rw [List.length_drop] at short
  rw [advance_ofIndex, runEnd_eq, Nat.min_eq_left short]

/-- Advancing by one leads behind the character here. -/
theorem advance_char (text : List Char) (i : Nat) :
    (ofIndex text i).advance 1 = ofIndex text (charEnd text i) := by
  rw [advance_ofIndex, charEnd]
  congr 1
  split <;> omega

/-- Advancing over a character, a run behind it and one character more leads behind that one. -/
theorem advance_quoted (inside : i < text.length) (test : Char → Bool) :
    (ofIndex text i).advance (((text.drop (i + 1)).takeWhile test).length + 2) =
      ofIndex text (charEnd text (runEnd test text (i + 1))) := by
  have first : charEnd text i = i + 1 := if_pos inside
  calc (ofIndex text i).advance (((text.drop (i + 1)).takeWhile test).length + 2)
    _ = (((ofIndex text i).advance 1).advance
          ((text.drop (i + 1)).takeWhile test).length).advance 1 := by
        rw [advance_advance, advance_advance]
        congr 1
        omega
    _ = ofIndex text (charEnd text (runEnd test text (i + 1))) := by
        rw [advance_char, first, advance_run, advance_char]

/-- A text stands at a place if it stands at the index. -/
theorem startsWith_ofIndex (pattern text : List Char) (i : Nat) :
    (ofIndex text i).startsWith pattern = standsAt pattern text i := by
  rw [startsWith, standsAt, Bool.eq_iff_iff, Bool.and_eq_true, Bool.and_eq_true,
    List.isPrefixOf_iff_prefix, List.prefix_iff_eq_take, beq_iff_eq, beq_iff_eq, decide_eq_true_iff]
  exact and_congr_left fun _ => Nat.sub_eq_zero_iff_le

/-- Advancing over a text that stands here leads on by its length. -/
theorem advance_stands (stands : standsAt pattern text i = true) :
    (ofIndex text i).advance pattern.length = ofIndex text (i + pattern.length) := by
  obtain ⟨-, here⟩ := Bool.and_eq_true_iff.mp stands
  have short := congrArg List.length (eq_of_beq here)
  rw [List.length_take, List.length_drop] at short
  rw [advance_ofIndex, Nat.min_eq_left (by omega)]

/-- A text that is not empty stands at an index if what is left of the text begins with it. -/
theorem standsAt_eq_isPrefixOf (nonempty : pattern ≠ []) (text : List Char) (i : Nat) :
    standsAt pattern text i = pattern.isPrefixOf (text.drop i) := by
  rw [← startsWith_ofIndex, startsWith_eq _ nonempty]
  rfl

/-- A comment is as long as that of what is left of the text. -/
theorem commentEnd_eq (text : List Char) (i : Nat) :
    commentEnd text i = i + commentLength (text.drop i) := by
  rw [commentEnd, commentLength, standsAt_eq_isPrefixOf (by decide)]
  split
  · exact runEnd_eq _ text i
  · rfl

/-- Advancing over the comment leads to its end. -/
theorem advance_comment (text : List Char) (i : Nat) :
    (ofIndex text i).advance (commentLength (text.drop i)) = ofIndex text (commentEnd text i) := by
  rw [commentLength, commentEnd, standsAt_eq_isPrefixOf (by decide)]
  split
  · exact advance_run _ text i
  · exact advance_zero _

/-- Advancing leads on, and not newly beyond the end. -/
theorem bounds_of_advance (stop : (ofIndex text i).advance count = ofIndex text j) :
    i ≤ j ∧ j ≤ max i text.length := by
  rw [advance_ofIndex] at stop
  have same := congrArg (index · text.length) stop
  simp only [index_ofIndex] at same
  omega

end Cursor

/-- A turn does not lead newly beyond the end. -/
theorem turnEnd_le (text : List Char) (i : Nat) : turnEnd text i ≤ max i text.length := by
  have blanks := Cursor.bounds_of_advance (Cursor.advance_run isBlank text i)
  have comment := Cursor.bounds_of_advance (Cursor.advance_comment text (runEnd isBlank text i))
  rw [turnEnd]
  omega

/-- The index behind the gap at an index: the scanners for blanks and for a comment take turns as
long as they find something. -/
def gapEnd (text : List Char) (i : Nat) : Nat :=
  if i < turnEnd text i then gapEnd text (turnEnd text i) else i
termination_by text.length - i
decreasing_by
  have := turnEnd_le text i
  omega

/-- Passing over the gap leads to its end. -/
theorem Cursor.skipGap_ofIndex (text : List Char) (i : Nat) :
    (ofIndex text i).skipGap = ofIndex text (gapEnd text i) := by
  have turn (i : Nat) : (ofIndex text (turnEnd text i)).skipGap = (ofIndex text i).skipGap := by
    have blanks := (ofIndex text i).skipGap_advance_blankLength
    have comment := (ofIndex text (runEnd isBlank text i)).skipGap_advance_commentLength
    rw [← blanks, turnEnd, ← advance_comment]
    exact comment.trans (congrArg skipGap (advance_run isBlank text i).symm)
  fun_induction gapEnd text i with
  | case1 i further ih => rw [← turn, ih]
  | case2 i still =>
      -- the turn has not moved, so neither scanner has found anything
      have blanks := runEnd_eq isBlank text i
      have comment := commentEnd_eq text (runEnd isBlank text i)
      rw [turnEnd] at still
      have stayed : runEnd isBlank text i = i := by omega
      rw [stayed] at blanks comment still
      refine skipGap_eq_self (settled_of_lengths ?_ ?_)
      · exact Nat.left_eq_add.mp blanks
      · change commentLength (text.drop i) = 0
        omega

/-! ## Tokens -/

/-- The tokens, by the type of what they answer. All other parsers are put together from them, and
pass over gaps at most. -/
inductive Token : Type → Type where
  /-- The character here. -/
  | peek : Token (Option Char)
  /-- Read the character here. -/
  | advance : Token Unit
  /-- Read the blanks here. -/
  | skipBlanks : Token Bool
  /-- Read the comment here. -/
  | skipComment : Token Bool
  /-- Read the gap here. -/
  | skip : Token Bool
  /-- Read the character after the gap. -/
  | nextChar : Token Char
  /-- Read the character after the gap and test it. -/
  | charTest (test : Char → Bool) : Token Bool
  /-- Read a gap and ask for the end of the text. -/
  | atEnd : Token Bool
  /-- Read a text right here, if it is there. -/
  | exactly (pattern : List Char) : Token Bool
  /-- Read a text after the gap, if it is there. -/
  | token (pattern : List Char) : Token Bool
  /-- Read a text after the gap. -/
  | require (pattern : List Char) : Token Unit
  /-- Read a name, which may be empty. -/
  | name : Token String
  /-- Read a name. -/
  | requireName : Token String
  /-- Read a string literal. -/
  | quoted : Token Term

/-- What is answered at an index of a text. -/
inductive Scan (α : Type) where
  /-- A value, and the index where reading goes on. -/
  | done (value : α) (next : Nat)
  /-- The label of what was expected, and the index where it was. -/
  | failed (expected : String) (index : Nat)

/-- The reply of a parser for an answer in a text. -/
def Scan.reply (text : List Char) : Scan α → Reply α
  | done value next => .done value (ofIndex text next)
  | failed expected index => .failed expected (ofIndex text index)

/-- The same answer in a text with `count` characters more before it. -/
def Scan.shift (count : Nat) : Scan α → Scan α
  | done value next => .done value (count + next)
  | failed expected index => .failed expected (count + index)

/-- Behind another text an answer is shifted if the reply stays the same. -/
theorem Scan.eq_shift {scan scan' : Scan α} {before text : List Char}
    (same : scan'.reply (before ++ text) = scan.reply text) : scan' = scan.shift before.length := by
  have shifted {j j' : Nat} (places : ofIndex (before ++ text) j' = ofIndex text j) :
      j' = before.length + j := by
    have indices := congrArg (Cursor.index · (before ++ text).length) places
    simp only [Cursor.index_ofIndex] at indices
    simp only [indices, Cursor.index, ofIndex, List.length_append]
    omega
  cases scan with
  | done value next =>
      cases scan' with
      | done value' next' =>
          obtain ⟨rfl, places⟩ := Outcome.done.inj (congrArg Reply.outcome same)
          exact congrArg (done value') (shifted places)
      | failed expected' index' => cases congrArg Reply.outcome same
  | failed expected index =>
      cases scan' with
      | done value' next' => cases congrArg Reply.outcome same
      | failed expected' index' =>
          obtain ⟨rfl, places⟩ := Fault.mk.inj (Outcome.failed.inj (congrArg Reply.outcome same))
          exact congrArg (failed expected') (shifted places)

/-- What a scanner replies that stops at an index: it tells whether it has moved. -/
theorem Scan.reply_moved (stop : (ofIndex text i).advance count = ofIndex text j) :
    Reply.done (((ofIndex text i).advance count).remaining != (ofIndex text i).remaining)
      ((ofIndex text i).advance count) = (Scan.done (j != i) j).reply text := by
  have between := Cursor.bounds_of_advance stop
  have moved : ((ofIndex text j).remaining != (ofIndex text i).remaining) = (j != i) := by
    rw [Bool.eq_iff_iff, bne_iff_ne, bne_iff_ne]
    simp only [ofIndex]
    omega
  rw [stop, moved]
  rfl

/-- What is replied that reads a run and answers its characters. -/
theorem Scan.reply_run (test : Char → Bool) (text : List Char) (i : Nat) :
    Reply.done (String.ofList ((ofIndex text i).rest.takeWhile test))
        ((ofIndex text i).advance ((ofIndex text i).rest.takeWhile test).length) =
      (Scan.done (String.ofList ((text.take (runEnd test text i)).drop i))
        (runEnd test text i)).reply text := by
  rw [Cursor.rest_ofIndex, Cursor.advance_run, takeWhile_drop_eq]
  rfl

/-- The character after the gap is that at the end of the gap. -/
theorem Parser.nextChar_ofIndex (text : List Char) (i : Nat) :
    nextChar (ofIndex text i) =
      .done (text[gapEnd text i]?.getD '\x00') (ofIndex text (charEnd text (gapEnd text i))) := by
  rw [nextChar, Cursor.skipGap_ofIndex, Cursor.advance_char, Cursor.rest_ofIndex, List.head?_drop]

namespace Token

/-- The parser of a token. -/
def parser : Token α → Parser α
  | peek => Parser.peek
  | advance => Parser.advance
  | skipBlanks => Parser.skipBlanks
  | skipComment => Parser.skipComment
  | skip => Parser.skip
  | nextChar => Parser.nextChar
  | charTest test => Parser.charTest test
  | atEnd => Parser.atEnd
  | exactly pattern => Parser.exactly pattern
  | token pattern => Parser.token pattern
  | require pattern => Parser.require pattern
  | name => Parser.name
  | requireName => Parser.requireName
  | quoted => Form.strBody

/-- What a token answers at an index of a text. -/
def scan : Token α → List Char → Nat → Scan α
  | peek, text, i => .done text[i]? i
  | advance, text, i => .done () (charEnd text i)
  | skipBlanks, text, i =>
      let j := runEnd isBlank text i
      .done (j != i) j
  | skipComment, text, i =>
      let j := commentEnd text i
      .done (j != i) j
  | skip, text, i =>
      let j := gapEnd text i
      .done (j != i) j
  | nextChar, text, i =>
      let j := gapEnd text i
      .done (text[j]?.getD '\x00') (charEnd text j)
  | charTest test, text, i =>
      let j := gapEnd text i
      .done (test (text[j]?.getD '\x00')) (charEnd text j)
  | atEnd, text, i =>
      let j := gapEnd text i
      .done (text.length ≤ j) j
  | exactly pattern, text, i =>
      if standsAt pattern text i then .done true (i + pattern.length) else .done false i
  | token pattern, text, i =>
      let j := gapEnd text i
      if standsAt pattern text j then .done true (j + pattern.length) else .done false i
  | require pattern, text, i =>
      let j := gapEnd text i
      if standsAt pattern text j then .done () (j + pattern.length)
      else .failed (String.ofList pattern) j
  | name, text, i =>
      let j := gapEnd text i
      let k := runEnd isNameChar text j
      .done (String.ofList ((text.take k).drop j)) k
  | requireName, text, i =>
      let j := gapEnd text i
      let k := runEnd isNameChar text j
      if k = j then .failed "name" j else .done (String.ofList ((text.take k).drop j)) k
  | quoted, text, i =>
      let j := gapEnd text i
      match text[j]? with
      | none => .failed (String.ofList [doubleQuote]) j
      | some delimiter =>
          let k := runEnd (· != delimiter) text (j + 1)
          .done (.ofText ((text.take k).drop (j + 1))) (charEnd text k)

/-- The parser of a token replies at the place of an index what the token answers there. -/
theorem parser_ofIndex (token : Token α) (text : List Char) (i : Nat) :
    token.parser (ofIndex text i) = (token.scan text i).reply text := by
  have atGap := Cursor.skipGap_ofIndex text i
  cases token with
  | peek => exact congrArg (Reply.done · (ofIndex text i)) List.head?_drop
  | advance => exact congrArg (Reply.done ()) (Cursor.advance_char text i)
  | skipBlanks => exact Scan.reply_moved (Cursor.advance_run isBlank text i)
  | skipComment => exact Scan.reply_moved (Cursor.advance_comment text i)
  | skip => exact Scan.reply_moved atGap
  | nextChar => exact nextChar_ofIndex text i
  | charTest test =>
      rw [parser, Parser.charTest, map_apply, nextChar_ofIndex]
      rfl
  | atEnd =>
      have ended : (text.drop (gapEnd text i)).isEmpty = decide (text.length ≤ gapEnd text i) := by
        rw [Bool.eq_iff_iff, List.isEmpty_iff, List.drop_eq_nil_iff, decide_eq_true_iff]
      rw [parser, Parser.atEnd, atGap]
      exact congrArg (Reply.done · _) ended
  | exactly pattern =>
      rw [parser, Parser.exactly, Cursor.startsWith_ofIndex, scan]
      split
      · next stands => exact congrArg (Reply.done true) (Cursor.advance_stands stands)
      · rfl
  | token pattern =>
      rw [parser, Parser.token, atGap, Cursor.startsWith_ofIndex, scan]
      split
      · next stands => exact congrArg (Reply.done true) (Cursor.advance_stands stands)
      · rfl
  | require pattern =>
      rw [parser, Parser.require, atGap, Cursor.startsWith_ofIndex, scan]
      split
      · next stands => exact congrArg (Reply.done ()) (Cursor.advance_stands stands)
      · rfl
  | name =>
      rw [parser, Parser.name, atGap]
      exact Scan.reply_run isNameChar text (gapEnd text i)
  | requireName =>
      have ended : ((ofIndex text (gapEnd text i)).rest.takeWhile isNameChar).isEmpty = true ↔
          runEnd isNameChar text (gapEnd text i) = gapEnd text i := by
        rw [runEnd_eq, List.isEmpty_iff_length_eq_zero, Cursor.rest_ofIndex]
        omega
      rw [parser, Parser.requireName, atGap, scan]
      by_cases nothing : runEnd isNameChar text (gapEnd text i) = gapEnd text i
      · rw [if_pos (ended.mpr nothing), if_pos nothing]
        rfl
      · rw [if_neg (mt ended.mp nothing), if_neg nothing]
        exact Scan.reply_run isNameChar text (gapEnd text i)

  | quoted =>
      rw [parser, Form.strBody, atGap, scan]
      cases here : text[gapEnd text i]? with
      | none =>
          have left : (ofIndex text (gapEnd text i)).rest = [] :=
            List.drop_eq_nil_of_le (List.getElem?_eq_none_iff.mp here)
          simp only [left]
          rfl
      | some delimiter =>
          obtain ⟨inside, rfl⟩ := List.getElem?_eq_some_iff.mp here
          have left : (ofIndex text (gapEnd text i)).rest =
              text[gapEnd text i] :: text.drop (gapEnd text i + 1) :=
            List.drop_eq_getElem_cons inside
          simp only [left]
          rw [Cursor.advance_quoted inside, takeWhile_drop_eq]
          rfl

/-- No token looks back: behind another text it answers as in its own, with the indices shifted. -/
theorem scan_append (token : Token α) (before text : List Char) (i : Nat) :
    token.scan (before ++ text) (before.length + i) =
      (token.scan text i).shift before.length := by
  have samePlace : ofIndex (before ++ text) (before.length + i) = ofIndex text i := by
    apply Cursor.ext
    · rw [Cursor.rest_ofIndex, Cursor.rest_ofIndex, List.drop_length_add_append]
    · simp only [ofIndex, List.length_append]
      omega
  apply Scan.eq_shift
  rw [← parser_ofIndex, ← parser_ofIndex, samePlace]

end Token

end Termbook
