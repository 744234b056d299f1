/-! # Code points

Which numbers stand for characters. A surrogate is a code point as well, but stands for none. -/

namespace Termbook

/-- The numbers of characters lie below or above those of the surrogates. -/
theorem toNat_range (c : Char) :
    c.toNat < 0xD800 ∨ (0xDFFF < c.toNat ∧ c.toNat < 0x110000) :=
  c.valid

/-- Each such number is that of a character. -/
theorem toNat_ofNat_of_range {number : Nat}
    (range : number < 0xD800 ∨ (0xDFFF < number ∧ number < 0x110000)) :
    (Char.ofNat number).toNat = number := by
  rw [Char.ofNat, dif_pos range]
  rfl

/-- A code point: a number up to the last one. -/
structure CodePoint where
  /-- The number. -/
  number : Nat
  /-- There is a last code point. -/
  number_le : number ≤ 0x10FFFF
  deriving DecidableEq

namespace CodePoint

/-- The code point of a character. -/
def ofChar (c : Char) : CodePoint where
  number := c.toNat
  number_le := by
    have range := toNat_range c
    omega

/-- Whether a code point is a surrogate, and so that of no character. -/
def isSurrogate (code : CodePoint) : Bool :=
  0xD800 ≤ code.number && code.number ≤ 0xDFFF

/-- Different characters have different code points. -/
theorem ofChar_inj {c d : Char} : ofChar c = ofChar d ↔ c = d :=
  ⟨fun same => Char.toNat_inj.mp (congrArg number same), congrArg ofChar⟩

/-- The code points of characters are those that are no surrogates. -/
theorem exists_ofChar_eq_iff {code : CodePoint} :
    (∃ c, ofChar c = code) ↔ code.isSurrogate = false := by
  obtain ⟨number, number_le⟩ := code
  simp only [isSurrogate, ofChar, mk.injEq, Bool.and_eq_false_iff, decide_eq_false_iff_not]
  constructor
  · rintro ⟨c, rfl⟩
    have range := toNat_range c
    omega
  · intro noSurrogate
    exact ⟨Char.ofNat number, toNat_ofNat_of_range (by omega)⟩

end CodePoint

/-- Whether a number passes as a code point: it is not above the last one and belongs to no
surrogate. Nothing is asked of negative numbers, since no term holds one. -/
def isCodePoint (number : Int) : Bool :=
  number ≤ 0x10FFFF && !(0xD800 ≤ number && number ≤ 0xDFFF)

/-- The character with a code point, if there is one. -/
def charOfCode? (number : UInt64) : Option Char :=
  if isCodePoint number.toNat then some (Char.ofNat number.toNat) else none

/-- A character's own number passes as a code point. -/
theorem isCodePoint_toNat (c : Char) : isCodePoint c.toNat = true := by
  have range := toNat_range c
  simp only [isCodePoint, Bool.and_eq_true, decide_eq_true_eq, Bool.not_eq_true',
    Bool.and_eq_false_iff, decide_eq_false_iff_not]
  omega

/-- A character is read back from its number. -/
theorem charOfCode?_ofNat_toNat (c : Char) : charOfCode? (UInt64.ofNat c.toNat) = some c := by
  have small : (UInt64.ofNat c.toNat).toNat = c.toNat := by
    have range := toNat_range c
    rw [UInt64.toNat_ofNat']
    omega
  rw [charOfCode?, small, if_pos (isCodePoint_toNat c), Char.ofNat_toNat]

end Termbook
