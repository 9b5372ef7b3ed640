/-!
# Blank text

A character is blank if it has the Unicode property White_Space, and a text is blank if all of
its characters are. Core's own notion of white space is part of it (`isBlankChar_of_isWhitespace`).
-/

namespace Courier.Text

/-- Does the character have the property White_Space? -/
def isBlankChar (c : Char) : Bool :=
  let n := c.toNat
  (0x9 ≤ n && n ≤ 0xD) || n == 0x20 || n == 0x85 || n == 0xA0 || n == 0x1680 ||
    (0x2000 ≤ n && n ≤ 0x200A) || n == 0x2028 || n == 0x2029 || n == 0x202F || n == 0x205F ||
    n == 0x3000

/-- Has the text no character that is not blank? -/
def isBlank (text : String) : Bool :=
  text.toList.all isBlankChar

theorem isBlankChar_of_isWhitespace (c : Char) (h : c.isWhitespace = true) :
    isBlankChar c = true := by
  simp only [Char.isWhitespace, Bool.or_eq_true, decide_eq_true_eq] at h
  rcases h with ((rfl | rfl) | rfl) | rfl <;> decide

end Courier.Text
