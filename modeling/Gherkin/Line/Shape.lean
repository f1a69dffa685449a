import Gherkin.Line.Keyword
import Gherkin.Line.Tags

/-!
# The shape of a line

Read on its own, a line starts with a keyword, or gives tags, or is free: what
a free line means depends on the lines before it.  A structural keyword comes
before tags and tags before a step keyword.

`shape` mirrors the first tests in `Scanner.scan`, those that do not look at the lines
before.
-/

namespace Gherkin

/-- What a line is, apart from where it stands. -/
inductive LineShape where
  | keyworded (m : KeywordMatch)
  | tags (names : List Text)
  | free
deriving DecidableEq, Repr

namespace Line

/-- The shape of a line without white space around it. -/
def shape (d : Dialect) (line : Text) : LineShape :=
  match match? d Role.structural line with
  | some m => .keyworded m
  | none =>
    match tags line with
    | name :: names => .tags (name :: names)
    | [] =>
      match match? d Role.steps line with
      | some m => .keyworded m
      | none => .free

end Line

end Gherkin
