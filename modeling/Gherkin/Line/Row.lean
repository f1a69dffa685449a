import Gherkin.Text.Blank

/-!
# Table rows

The cells of a row stand between bars.  One bar at either end belongs to the
row and not to a cell, so that a last cell can be left empty.  There is no way
to write a bar inside a cell, and always at least one cell.

`cells` mirrors `split_cells`, and `row` the writing of a row in a dump.
-/

namespace Gherkin.Line

/-- The cells of a row, without the white space around them. -/
def cells (line : Text) : List Text :=
  let inner := Text.withoutTrailing ['|'] (Text.withoutLeading ['|'] (Text.trim line))
  (Text.pieces '|' inner).map Text.trim

/-- The row with the given cells. -/
def row (cells : List Text) : Text := ['|', ' '] ++ Text.join [' ', '|', ' '] cells ++ [' ', '|']

/-- Whether a line can be a row. -/
def isRow (line : Text) : Bool := line.head? == some '|'

end Gherkin.Line
