import Gherkin.Feature.Basic
import Gherkin.Feature.Segment

/-!
# Assembling a feature

The tokens of a segment are taken one after another.  Tags wait until something
comes that can bear them; steps go to the container that was opened last; rows
and text blocks go to the last step, except that rows behind an examples token
go to its table.  A container joins the feature when the next one opens or the
segment ends.

What cannot be placed is left out and reported in `log`.

`Assembly` mirrors `Assembler` with `place` for its `push`, `enter` and `close` for
`open_container` and `close_container`, `placeExamples`, `placeStep` and `placeRow` for the
functions that start with `push_`, and `complete` for `finish`; `build` mirrors the
function of that name.  What differs:
- Step and table are not changed in place: `modifyLast` puts another one there.
- The reports are kept in `log`, those about the segments in `segmentEvents`.
-/

namespace Gherkin

/-- The container that receives steps. -/
inductive OpenContainer where
  | background (c : Container)
  | scenario (c : Container)
  | outline (o : Outline)
deriving DecidableEq, Repr

namespace OpenContainer

def steps : OpenContainer → List Step
  | background c => c.steps
  | scenario c => c.steps
  | outline o => o.steps

/-- Put other steps in place. -/
def withSteps (steps : List Step) : OpenContainer → OpenContainer
  | background c => background { c with steps := steps }
  | scenario c => scenario { c with steps := steps }
  | outline o => outline { o with steps := steps }

end OpenContainer

/-- What a row belongs to. -/
inductive RowOwner where
  | step
  | examples
deriving DecidableEq, Repr

/-- A feature under assembly: what has joined it, the tags that wait, the open
container, where rows go, the last primary step family, and the reports. -/
structure Assembly where
  feature : Option Feature := none
  tags : List Tag := []
  container : Option OpenContainer := none
  rows : RowOwner := .step
  previous : Option StepFamily := none
  log : List Event := []
deriving DecidableEq, Repr

/-- Replace the last member of a list. -/
def modifyLast {α : Type} (f : α → α) : List α → List α
  | [] => []
  | [a] => [f a]
  | a :: b :: l => a :: modifyLast f (b :: l)

namespace Assembly

/-- Report an event. -/
def report (a : Assembly) (e : Event) : Assembly := { a with log := a.log ++ [e] }

/-- The heading that a token opens, with the tags that wait. -/
def heading (a : Assembly) (t : Token) : Heading := ⟨t.keyword, t.text, a.tags⟩

/-- The feature with one more container. -/
def join (f : Feature) : OpenContainer → Feature
  | .background c => { f with background := some c }
  | .scenario c => { f with scenarios := f.scenarios ++ [.scenario c] }
  | .outline o => { f with scenarios := f.scenarios ++ [.outline o] }

/-- What is reported when a container joins a feature. -/
def joinEvents (f : Feature) : OpenContainer → List Event
  | .background c => if f.background.isSome then [.replacedBackground c.name] else []
  | _ => []

/-- Let the open container join the feature. -/
def close (a : Assembly) : Assembly :=
  match a.container with
  | none => a
  | some c =>
    match a.feature with
    | none => { a with container := none }.report .containerWithoutFeature
    | some f =>
      { a with
        container := none
        feature := some (join f c)
        log := a.log ++ joinEvents f c }

/-- Open another container; it bears the tags that wait. -/
def enter (a : Assembly) (c : OpenContainer) : Assembly :=
  { a.close with container := some c, tags := [], rows := .step, previous := none }

/-- Add to the last step of the open container. -/
def attach (a : Assembly) (argument : StepArgument) (otherwise : Event) : Assembly :=
  match a.container with
  | none => a.report otherwise
  | some c =>
    if c.steps.isEmpty then a.report otherwise
    else
      let add (s : Step) : Step := { s with arguments := s.arguments ++ [argument] }
      { a with container := some (c.withSteps (modifyLast add c.steps)) }

/-- A description belongs to the feature; of two, the later stays. -/
def placeDescription (a : Assembly) (t : Token) : Assembly :=
  match a.feature with
  | some f => { a with feature := some { f with description := some t.text } }
  | none => a.report (.descriptionWithoutFeature t.line)

/-- Examples belong to an open outline. -/
def placeExamples (a : Assembly) (t : Token) : Assembly :=
  match a.container with
  | some (.outline o) =>
    { a with
      container := some (.outline { o with examples := o.examples ++ [⟨a.heading t, []⟩] })
      tags := []
      rows := .examples }
  | _ => { a with tags := [], rows := .examples }.report (.examplesOutsideOutline t.line)

/-- A step belongs to the open container. -/
def placeStep (a : Assembly) (t : Token) (family : StepFamily) : Assembly :=
  match a.container with
  | none => a.report (.stepWithoutContainer t.line)
  | some c =>
    let step : Step := ⟨t.keyword, t.text, family, family.resolve a.previous, []⟩
    { a with
      container := some (c.withSteps (c.steps ++ [step]))
      rows := .step
      previous := family.carry a.previous }

/-- A row goes where rows go. -/
def placeRow (a : Assembly) (t : Token) : Assembly :=
  let cells := Line.cells t.text
  match a.rows with
  | .step => a.attach (.row cells) (.rowWithoutStep t.line)
  | .examples =>
    match a.container with
    | some (.outline o) =>
      if o.examples.isEmpty then a.report (.rowWithoutExamples t.line)
      else
        let add (e : Examples) : Examples := { e with rows := e.rows ++ [cells] }
        { a with container := some (.outline { o with examples := modifyLast add o.examples }) }
    | _ => a.report (.rowOfDiscardedExamples t.line)

/-- One token. -/
def place (a : Assembly) (t : Token) : Assembly :=
  match t.kind with
  | .tag => { a with tags := a.tags ++ [⟨t.text⟩] }
  | .feature => { a with feature := some ⟨a.heading t, none, none, []⟩, tags := [] }
  | .description => a.placeDescription t
  | .background => a.enter (.background ⟨a.heading t, []⟩)
  | .scenario => a.enter (.scenario ⟨a.heading t, []⟩)
  | .scenarioOutline => a.enter (.outline ⟨⟨a.heading t, []⟩, []⟩)
  | .examples => a.placeExamples t
  | .step family => a.placeStep t family
  | .row => a.placeRow t
  | .block => a.attach (.block t.text) (.blockWithoutStep t.line)

/-- The end of the segment. -/
def complete (a : Assembly) : Assembly :=
  let a := a.close
  if a.tags.isEmpty then a else a.report (.tagsWithoutNode a.tags.length)

/-- The assembly of a whole segment. -/
def ofTokens (segment : List Token) : Assembly := (segment.foldl place {}).complete

end Assembly

/-- The features of a sequence of tokens. -/
def build (ts : List Token) : List Feature :=
  (segments ts).filterMap fun segment => (Assembly.ofTokens segment).feature

/-- What is reported while the features are built: first about the segments,
then about each of them. -/
def buildEvents (ts : List Token) : List Event :=
  .buildSpan ts.length :: segmentEvents ts
    ++ (segments ts).flatMap fun segment => (Assembly.ofTokens segment).log

end Gherkin
