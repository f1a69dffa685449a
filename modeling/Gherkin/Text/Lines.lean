import Gherkin.Text.Basic

/-!
# Lines of a text

A line ends with a line feed, or with a carriage return and a line feed; the
last line may end with the text.  A text that ends in a line feed has no empty
line after it, and the empty text has no lines.
-/

namespace Gherkin.Text

/-- The lines whose line feeds stood between the given pieces. -/
def linesOfPieces : List Text → List Text
  | [] => []
  | [last] => if last.isEmpty then [] else [last]
  | w :: ws => withoutTrailing ['\r'] w :: linesOfPieces ws

/-- The lines of `s`, without what ended them. -/
def lines (s : Text) : List Text := linesOfPieces (pieces '\n' s)

/-- Lines as one text, with a line feed between each two. -/
def ofLines (ls : List Text) : Text := join ['\n'] ls

end Gherkin.Text
