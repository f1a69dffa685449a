import Gherkin.Text.Word

/-!
# Tag lines

A tag is an at sign with a word directly behind it.  A line that starts with an
at sign gives all the tags on it, whatever stands between them.

`tagWords` mirrors `tag_names`.  What differs: a word is cut off by its characters and not
by the byte at which the search stops.
-/

namespace Gherkin.Line

/-- The words directly behind the at signs of a text, in order. -/
def tagWords (s : Text) : List Text :=
  (((Text.pieces '@' s).drop 1).map (·.takeWhile Text.isWordChar)).filter (fun w => !w.isEmpty)

/-- The tags of a line; none if it does not start with an at sign. -/
def tags (line : Text) : List Text :=
  match line with
  | '@' :: _ => tagWords line
  | _ => []

end Gherkin.Line
