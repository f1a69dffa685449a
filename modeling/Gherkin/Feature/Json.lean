import Gherkin.Feature.Basic
import Gherkin.Json.Printer

/-!
# Feature trees as JSON

Every node is an object with its fields in a fixed order.  What may be missing
is `null`, a row is the array of its cells, an entry of the scenario list says
in `type` which of the two it is, and an argument of a step is an object with
one member that says which of the two it is.

`jsonDocument` mirrors `write_json`.  What differs: the program leaves the shape to the
serializer that is derived from its types; here it is written out.
-/

namespace Gherkin

namespace Tag

def toJson (t : Tag) : Json := .record [("name", .text t.name)]

end Tag

/-- The fields of a heading. -/
def Heading.jsonFields (h : Heading) : List (String × Json) :=
  [("keyword", .text h.keyword), ("name", .text h.name), ("tags", .array (h.tags.map Tag.toJson))]

namespace Row

def toJson (cells : Row) : Json := .array (cells.map .text)

end Row

namespace StepArgument

def toJson : StepArgument → Json
  | block text => .record [("multiline", .text text)]
  | row cells => .record [("row", Row.toJson cells)]

end StepArgument

namespace StepFamily

def toJson (f : StepFamily) : Json := .text f.name.toList

end StepFamily

namespace Step

def toJson (s : Step) : Json :=
  .record
    [("keyword", .text s.keyword), ("name", .text s.name), ("family", s.family.toJson),
     ("step_type", s.stepType.toJson), ("arguments", .array (s.arguments.map StepArgument.toJson))]

end Step

namespace Examples

def toJson (e : Examples) : Json :=
  .record (e.toHeading.jsonFields ++ [("rows", .array (e.rows.map Row.toJson))])

end Examples

namespace Container

/-- The fields of a node with steps. -/
def jsonFields (c : Container) : List (String × Json) :=
  c.toHeading.jsonFields ++ [("steps", .array (c.steps.map Step.toJson))]

def toJson (c : Container) : Json := .record c.jsonFields

end Container

namespace ScenarioItem

def toJson : ScenarioItem → Json
  | scenario s => .record (("type", .text "scenario") :: s.jsonFields)
  | outline o =>
    .record (("type", .text "outline") :: o.toContainer.jsonFields
      ++ [("examples", .array (o.examples.map Examples.toJson))])

end ScenarioItem

namespace Feature

/-- What may be missing. -/
def optionalJson {α : Type} (f : α → Json) : Option α → Json
  | none => .null
  | some a => f a

def toJson (f : Feature) : Json :=
  .record (f.toHeading.jsonFields ++
    [("description", optionalJson .text f.description),
     ("background", optionalJson Container.toJson f.background),
     ("scenarios", .array (f.scenarios.map ScenarioItem.toJson))])

/-- A list of features as a JSON document. -/
def jsonDocument (fs : List Feature) : Text := Json.pretty 0 (.array (fs.map toJson)) ++ ['\n']

end Feature

end Gherkin
