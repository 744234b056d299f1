import Termbook.Proofs.Dispatch

/-! # Names in a text

A name in a text is a whole run of name characters: no name character follows it. Its first
character alone tells the form of the term that it begins, unless it is a keyword with the space
that ends it. -/

namespace Termbook

/-- A name is not empty and consists of name characters. -/
def IsName (name : String) : Prop :=
  name.toList ≠ [] ∧ ∀ c ∈ name.toList, isNameChar c = true

/-- Whether a text is a name is a test of its characters. -/
theorem isName_iff {name : String} :
    IsName name ↔ (!name.toList.isEmpty && name.toList.all isNameChar) = true := by
  simp [IsName]

instance (name : String) : Decidable (IsName name) :=
  decidable_of_iff _ isName_iff.symm

/-- No name goes on at the front of a text. -/
def EndsName (text : List Char) : Prop :=
  ∀ c ∈ text.head?, isNameChar c = false

/-- No name goes on at the end of a text. -/
theorem endsName_nil : EndsName [] := nofun

/-- A character that belongs to no name ends one. -/
theorem endsName_cons {c : Char} {rest : List Char} (notNameChar : isNameChar c = false) :
    EndsName (c :: rest) := by
  intro first member
  obtain rfl : c = first := by simpa using member
  exact notNameChar

/-- `Word text name rest`: after a gap at the front of `text` stands a whole name, and `rest` after
it. -/
def Word (text : List Char) (name : String) (rest : List Char) : Prop :=
  IsName name ∧ EndsName rest ∧ After text (name.toList ++ rest)

/-! ## Characters -/

/-- Name characters are ASCII. -/
theorem toNat_lt_of_isNameChar {c : Char} (nameChar : isNameChar c = true) : c.toNat < 128 := by
  simp only [isNameChar, Char.isAlphanum, Char.isAlpha, Char.isUpper, Char.isLower, Char.isDigit,
    Bool.or_eq_true, Bool.and_eq_true, decide_eq_true_eq, beq_iff_eq, UInt32.le_iff_toNat_le,
    ge_iff_le, Char.toNat_val] at nameChar
  rcases nameChar with ((inRange | rfl) | rfl) | rfl
  · have : 'Z'.toNat = 90 := rfl
    have : 'z'.toNat = 122 := rfl
    have : '9'.toNat = 57 := rfl
    omega
  · decide
  · decide
  · decide

/-- A name character is one of the first 128 characters, so a property of all of them is decided by
trying. -/
theorem exists_code_of_isNameChar {c : Char} (nameChar : isNameChar c = true) :
    ∃ code : Fin 128, c = Char.ofNat code :=
  ⟨⟨c.toNat, toNat_lt_of_isNameChar nameChar⟩, (Char.ofNat_toNat c).symm⟩

/-- Name characters are solid, and none of them is an operator character. -/
theorem solid_of_isNameChar {c : Char} (nameChar : isNameChar c = true) :
    isSolid c = true ∧ c ∉ Form.operatorChars := by
  obtain ⟨code, rfl⟩ := exists_code_of_isNameChar nameChar
  revert code
  decide +kernel

/-- A name character makes its text significant. -/
theorem significant_of_isNameChar {c : Char} (rest : List Char) (nameChar : isNameChar c = true) :
    Significant (c :: rest) :=
  significant_cons (solid_of_isNameChar nameChar).1

/-- A name begins with a name character. -/
theorem IsName.exists_eq_cons {name : String} (isName : IsName name) :
    ∃ c others, name.toList = c :: others ∧ isNameChar c = true := by
  obtain ⟨nonempty, nameChars⟩ := isName
  cases shape : name.toList with
  | nil => exact absurd shape nonempty
  | cons c others => exact ⟨c, others, rfl, nameChars c (shape ▸ List.mem_cons_self)⟩

/-- A name makes its text significant. -/
theorem IsName.significant {name : String} (isName : IsName name) (rest : List Char) :
    Significant (name.toList ++ rest) := by
  obtain ⟨c, others, shape, nameChar⟩ := isName.exists_eq_cons
  rw [shape]
  exact significant_of_isNameChar _ nameChar

/-- A name begins with no bracket. -/
theorem IsName.append_ne_bracket {name : String} (isName : IsName name) {rest tail : List Char} :
    name.toList ++ rest ≠ '(' :: tail := by
  intro same
  obtain ⟨c, others, shape, nameChar⟩ := isName.exists_eq_cons
  rw [shape] at same
  cases same
  exact absurd nameChar (by decide)

/-- The name characters at the front of a text are those of the name there. -/
theorem takeWhile_isNameChar_append {letters rest : List Char}
    (nameChars : ∀ c ∈ letters, isNameChar c = true) (ends : EndsName rest) :
    (letters ++ rest).takeWhile isNameChar = letters := by
  rw [List.takeWhile_append_of_pos nameChars]
  cases rest with
  | nil => simp
  | cons c rest =>
      rw [List.takeWhile_cons_of_neg (by simp [ends c rfl]), List.append_nil]

/-- No name goes on after all the name characters at the front of a text. -/
theorem endsName_dropWhile (text : List Char) : EndsName (text.dropWhile isNameChar) := by
  intro c first
  have := List.head?_dropWhile_not isNameChar text
  rw [Option.mem_def.mp first] at this
  simpa using this

namespace Form

/-- The first character of a text tells its form, except for a bracket or a keyword. -/
theorem at?_cons {c : Char} {rest : List Char} (notBracket : c ≠ '(')
    (notLet : ¬ letMark <+: c :: rest) (notDup : ¬ dupMark <+: c :: rest) :
    at? (c :: rest) = at? [c] := by
  have dropBracket_cons (rest : List Char) : dropBracket (c :: rest) = c :: rest := by
    rw [dropBracket]
    simp [notBracket]
  have noLet : letMark.isPrefixOf [c] = false := by simp [letMark, List.isPrefixOf]
  have noDup : dupMark.isPrefixOf [c] = false := by simp [dupMark, List.isPrefixOf]
  rw [← List.isPrefixOf_iff_prefix, Bool.not_eq_true] at notLet notDup
  have sameOpening : ∀ form ∈ all, form.opens (c :: rest) = form.opens [c] := by
    intro form _
    cases form with
    | letIn => rw [opens, opens, notLet, noLet]
    | dup => rw [opens, opens, notDup, noDup]
    | ctr | op2 => rw [opens, opens, dropBracket_cons, dropBracket_cons]; rfl
    | lam | app | num | chr | str | lst | var => rfl
  rw [at?, at?]
  revert sameOpening
  induction all with
  | nil => exact fun _ => rfl
  | cons form forms ih =>
      intro same
      rw [List.find?_cons, List.find?_cons, same form List.mem_cons_self,
        ih fun form member => same form (List.mem_cons_of_mem _ member)]

/-- A single name character tells the form of what it begins, if it begins a term at all. -/
theorem at?_singleton {c : Char} (nameChar : isNameChar c = true) :
    at? [c] =
      if c.isUpper then some ctr
      else if c.isDigit then some num
      else if startsVar c then some var
      else none := by
  obtain ⟨code, rfl⟩ := exists_code_of_isNameChar nameChar
  revert code
  decide +kernel

end Form

end Termbook
