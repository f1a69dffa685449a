import Gherkin.Token
import Gherkin.Line.Row

/-!
# Feature trees

What a document means is a list of features.  A feature holds a background and
scenarios, these hold steps, and steps hold a text block and table rows.  All
nodes but the steps begin with a `Heading`: keyword, name and tags.
-/

namespace Gherkin

/-- A tag, by its word. -/
structure Tag where
  name : Text
deriving DecidableEq, Repr

/-- What every node but a step begins with. -/
structure Heading where
  keyword : Text
  name : Text
  tags : List Tag
deriving DecidableEq, Repr

/-- Whether one of the tags is the given word. -/
def Heading.hasTag (h : Heading) (word : Text) : Bool := h.tags.any (fun t => t.name == word)

/-- The cells of a table row. -/
abbrev Row := List Text

/-- What a step has below its line. -/
inductive StepArgument where
  | block (text : Text)
  | row (cells : Row)
deriving DecidableEq, Repr

namespace StepArgument

def block? : StepArgument → Option Text
  | block text => some text
  | row _ => none

def row? : StepArgument → Option Row
  | block _ => none
  | row cells => some cells

end StepArgument

/-- A step: the family of its keyword, and the primary family it stands for. -/
structure Step where
  keyword : Text
  name : Text
  family : StepFamily
  stepType : StepFamily
  arguments : List StepArgument
deriving DecidableEq, Repr

namespace Step

/-- The first text block of a step. -/
def block? (s : Step) : Option Text := s.arguments.findSome? StepArgument.block?

/-- The table of a step. -/
def rows (s : Step) : List Row := s.arguments.filterMap StepArgument.row?

end Step

/-- A table of values for an outline. -/
structure Examples extends Heading where
  rows : List Row
deriving DecidableEq, Repr

/-- A node with steps of its own. -/
structure Container extends Heading where
  steps : List Step
deriving DecidableEq, Repr

/-- A scenario template with its examples. -/
structure Outline extends Container where
  examples : List Examples
deriving DecidableEq, Repr

/-- An entry in the scenario list of a feature. -/
inductive ScenarioItem where
  | scenario (s : Container)
  | outline (o : Outline)
deriving DecidableEq, Repr

namespace ScenarioItem

/-- The entry without its examples. -/
def container : ScenarioItem → Container
  | scenario s => s
  | outline o => o.toContainer

/-- The kind of token that an entry is made from. -/
def kind : ScenarioItem → TokenKind
  | scenario _ => .scenario
  | outline _ => .scenarioOutline

/-- The examples of an outline; `none` for a scenario. -/
def examples? : ScenarioItem → Option (List Examples)
  | scenario _ => none
  | outline o => some o.examples

end ScenarioItem

/-- A feature: a description, a background for all its scenarios, and these. -/
structure Feature extends Heading where
  description : Option Text
  background : Option Container
  scenarios : List ScenarioItem
deriving DecidableEq, Repr

/-- Everything with steps in a feature, the background in front. -/
def Feature.containers (f : Feature) : List Container :=
  f.background.toList ++ f.scenarios.map ScenarioItem.container

end Gherkin
