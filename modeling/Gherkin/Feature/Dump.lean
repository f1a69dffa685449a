import Gherkin.Feature.Basic
import Gherkin.Text.Lines

/-!
# Dumps

A dump shows a feature tree as a document would: one node on a line, two spaces
deeper than the node above it, tags in brackets behind the name, the cells of a
row between bars, and text blocks between lines of three quotes.

`dump` mirrors `render`, and each kind of node has its function there and here.
-/

namespace Gherkin

namespace Dump

/-- A line with white space in front. -/
def indented (width : Nat) (s : Text) : Text := List.replicate width ' ' ++ s ++ ['\n']

/-- The tags of a node, each with its mark. -/
def tags (ts : List Tag) : Text := Text.join [' '] (ts.map fun t => '@' :: t.name)

/-- A heading without what stands in front of it. -/
def headingLine (h : Heading) : Text :=
  h.keyword ++ [':']
    ++ (if h.name.isEmpty then [] else ' ' :: h.name)
    ++ (if h.tags.isEmpty then [] else [' ', '['] ++ tags h.tags ++ [']'])

/-- A heading at the given depth. -/
def heading (depth : Nat) (h : Heading) : Text := indented (2 * depth) (headingLine h)

/-- The width of the white space in front of what a step or examples hold. -/
def contentWidth : Nat := 6

/-- The line above and below a text block. -/
def fence : Text := "\"\"\""

/-- A row of a table. -/
def row (cells : Row) : Text := indented contentWidth (Line.row cells)

/-- What a step has below its line. -/
def argument : StepArgument → Text
  | .row cells => row cells
  | .block text =>
    indented contentWidth fence ++ (Text.lines text).flatMap (indented contentWidth)
      ++ indented contentWidth fence

/-- A step. -/
def step (s : Step) : Text :=
  indented 4 (s.keyword ++ [' '] ++ s.name) ++ s.arguments.flatMap argument

/-- The examples of an outline. -/
def examples (e : Examples) : Text := heading 2 e.toHeading ++ e.rows.flatMap row

/-- A background or scenario. -/
def container (c : Container) : Text := heading 1 c.toHeading ++ c.steps.flatMap step

/-- A scenario or an outline with its examples. -/
def item (i : ScenarioItem) : Text :=
  container i.container ++ (i.examples?.getD []).flatMap examples

/-- The lines of a description. -/
def description (d : Option Text) : Text :=
  match d with
  | none => []
  | some text => (Text.lines text).flatMap (indented 2)

/-- The background of a feature. -/
def background (b : Option Container) : Text :=
  match b with
  | none => []
  | some c => container c

/-- A feature. -/
def feature (f : Feature) : Text :=
  heading 0 f.toHeading ++ description f.description ++ background f.background
    ++ f.scenarios.flatMap item

end Dump

/-- The dump of a list of features. -/
def dump (fs : List Feature) : Text := fs.flatMap Dump.feature

end Gherkin
