/-!
# Blank characters

Blank characters are those with the Unicode property `White_Space`. Narrower
notions stand beside them: the characters of an indentation, and the blanks of
the first 128 code points without the vertical tab.
-/

namespace RecordText.Text

/-- Whether `c` is white space in the sense of Unicode. -/
def isBlank (c : Char) : Bool :=
  let n := c.toNat
  (0x9 ≤ n && n ≤ 0xD) || n == 0x20 || n == 0x85 || n == 0xA0 || n == 0x1680 ||
    (0x2000 ≤ n && n ≤ 0x200A) || n == 0x2028 || n == 0x2029 || n == 0x202F ||
    n == 0x205F || n == 0x3000

/-- Whether `c` may stand in an indentation: a space or a tab. -/
def isIndentChar (c : Char) : Bool :=
  c == ' ' || c == '\t'

/-- Whether `c` is a space, tab, line feed, form feed or carriage return. -/
def isPlainBlank (c : Char) : Bool :=
  c == ' ' || c == '\t' || c == '\n' || c == '\x0c' || c == '\r'

/-- Core's notion of white space is part of this one. -/
theorem isBlank_of_isWhitespace (c : Char) (h : c.isWhitespace = true) : isBlank c = true := by
  simp only [Char.isWhitespace, Bool.or_eq_true, decide_eq_true_eq] at h
  rcases h with ((h | h) | h) | h <;> subst h <;> decide

/-- An indentation is blank. -/
theorem isBlank_of_isIndentChar (c : Char) (h : isIndentChar c = true) : isBlank c = true := by
  simp only [isIndentChar, Bool.or_eq_true, beq_iff_eq] at h
  rcases h with h | h <;> subst h <;> decide

/-- Drop the blanks at the front. -/
def trimStart (text : List Char) : List Char :=
  text.dropWhile isBlank

/-- Drop the blanks at the back. -/
def trimEnd (text : List Char) : List Char :=
  (text.reverse.dropWhile isBlank).reverse

/-- Whether all characters are blank. -/
def allBlank (text : List Char) : Bool :=
  text.all isBlank

end RecordText.Text
