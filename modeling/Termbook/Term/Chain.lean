import Termbook.Term.Basic
import Termbook.Text.CodePoint

/-! # Reading constructor chains back

The list and the text for which a chain of constructors stands. Both views are exact: they answer
only for the chains that `Term.ofList` and `Term.ofText` build. -/

namespace Termbook

namespace Term

/-- The items of a list chain. -/
def toList? : Term → Option (List Term)
  | ctr name [item, rest] =>
      if name = consName then (toList? rest).map (item :: ·) else none
  | ctr name [] => if name = nilName then some [] else none
  | _ => none

/-- The characters of a text chain. -/
def toText? : Term → Option (List Char)
  | ctr name [num code, rest] =>
      if name = strConsName then
        match charOfCode? code with
        | some c => (toText? rest).map (c :: ·)
        | none => none
      else none
  | ctr name [] => if name = strNilName then some [] else none
  | _ => none

/-- A list chain reads back as its list. -/
@[simp] theorem toList?_ofList (items : List Term) : (ofList items).toList? = some items := by
  induction items with
  | nil => rfl
  | cons item rest ih =>
      change (ctr consName [item, ofList rest]).toList? = _
      rw [toList?, if_pos rfl, ih, Option.map_some]

/-- A text chain reads back as its text. -/
@[simp] theorem toText?_ofText (text : List Char) : (ofText text).toText? = some text := by
  induction text with
  | nil => rfl
  | cons c rest ih =>
      change (ctr strConsName [num (UInt64.ofNat c.toNat), ofText rest]).toText? = _
      rw [toText?, if_pos rfl, charOfCode?_ofNat_toNat]
      simp only [ih, Option.map_some]

end Term

end Termbook
