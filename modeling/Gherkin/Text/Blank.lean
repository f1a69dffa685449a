import Gherkin.Text.Basic
import Gherkin.Text.Ranges
import Gherkin.Trailing

/-!
# White space

White space is the Unicode property of that name, in every place where this
library looks at it: around a line, around a cell, between a keyword and its
text, in a language code.
-/

namespace Gherkin.Text

/-- The code points with the Unicode property `White_Space`. -/
def blankRanges : List (Nat × Nat) :=
  [(0x09, 0x0D), (0x20, 0x20), (0x85, 0x85), (0xA0, 0xA0), (0x1680, 0x1680),
   (0x2000, 0x200A), (0x2028, 0x2029), (0x202F, 0x202F), (0x205F, 0x205F),
   (0x3000, 0x3000)]

/-- A white space character. -/
def isBlank (c : Char) : Bool := inRanges blankRanges c.toNat

/-- `s` without the white space in front. -/
def trimStart (s : Text) : Text := s.dropWhile isBlank

/-- `s` without the white space behind. -/
def trimEnd (s : Text) : Text := dropTrailing isBlank s

/-- `s` without the white space around it. -/
def trim (s : Text) : Text := trimEnd (trimStart s)

end Gherkin.Text
