/-!
# White space

The characters of the Unicode property `White_Space`. Markers, configuration texts and their
blank lines are all cut by this one class, so it is stated once here.
-/

namespace Webcomic.Text

/-- The property `White_Space`: the ASCII controls from tab to carriage return, the space, and the
spaces and separators of the other blocks. The information separators U+001C to U+001F are not
in it. -/
def isBlank (c : Char) : Bool :=
  let n := c.toNat
  (0x9 ≤ n && n ≤ 0xD) || n == 0x20 || n == 0x85 || n == 0xA0 || n == 0x1680
    || (0x2000 ≤ n && n ≤ 0x200A) || n == 0x2028 || n == 0x2029 || n == 0x202F || n == 0x205F
    || n == 0x3000

/-- The space, the tab and the line breaks are white space. -/
theorem isBlank_of_isWhitespace {c : Char} (h : c.isWhitespace = true) : isBlank c = true := by
  simp only [Char.isWhitespace, Bool.or_eq_true, decide_eq_true_eq] at h
  rcases h with ((rfl | rfl) | rfl) | rfl <;> decide

/-- A text that holds nothing but white space. -/
def allBlank (s : String) : Bool :=
  s.toList.all isBlank

end Webcomic.Text
