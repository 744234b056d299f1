/-! # Blanks

The characters that separate tokens without belonging to one: the white space of Unicode and the
four information separators U+001C to U+001F. -/

namespace Termbook

/-- The blank characters: tab to carriage return, the information separators, the space, and the
space, line and paragraph separators beyond ASCII. -/
def isBlank (c : Char) : Bool :=
  let code := c.toNat
  if code < 0x80 then
    (0x09 ≤ code && code ≤ 0x0D) || (0x1C ≤ code && code ≤ 0x20)
  else
    code == 0x85 || code == 0xA0 || code == 0x1680 || (0x2000 ≤ code && code ≤ 0x200A) ||
      code == 0x2028 || code == 0x2029 || code == 0x202F || code == 0x205F || code == 0x3000

/-- A newline is blank, so a comment's newline belongs to the gap after the comment. -/
@[simp] theorem isBlank_newline : isBlank '\n' = true := rfl

/-- A plain space is blank. -/
@[simp] theorem isBlank_space : isBlank ' ' = true := rfl

/-- A slash is not blank, so a comment never hides inside a run of blanks. -/
@[simp] theorem isBlank_slash : isBlank '/' = false := rfl

end Termbook
