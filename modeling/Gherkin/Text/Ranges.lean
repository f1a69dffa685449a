/-!
# Sets of characters as ranges

A character class is a list of ranges of code points, in ascending order and
without overlap.  `inRanges` walks the list only as far as the code point it
looks for.
-/

namespace Gherkin.Text

/-- Whether `n` lies in one of the ascending ranges `(first, last)`. -/
def inRanges : List (Nat × Nat) → Nat → Bool
  | [], _ => false
  | (first, last) :: rest, n =>
    if n < first then false else if n ≤ last then true else inRanges rest n

end Gherkin.Text
