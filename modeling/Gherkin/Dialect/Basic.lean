import Gherkin.StepFamily

/-!
# Dialects

A dialect is the vocabulary of feature documents in one language: for each of
ten roles, the synonyms that may stand in a document.  Synonyms are ordered,
may repeat, and may be any texts at all; `Dialect.missing?` finds a role that
was left without any.

`Dialect` mirrors `Keywords`, `missing?` the search in its `validate`.
-/

namespace Gherkin

/-- What a keyword is for. -/
inductive Role where
  | feature
  | background
  | scenario
  | scenarioOutline
  | examples
  | step (family : StepFamily)
deriving DecidableEq, Repr

namespace Role

/-- The roles whose keywords open a part of the document. -/
def structural : List Role := [feature, background, scenario, scenarioOutline, examples]

/-- The roles whose keywords open a step. -/
def steps : List Role := StepFamily.all.map step

/-- All roles, in the order in which a dialect lists them. -/
def all : List Role := structural ++ steps

/-- Whether keywords of this role open a step. -/
def isStep : Role → Bool
  | step _ => true
  | _ => false

/-- The name of the role in a keyword document. -/
def key : Role → String
  | feature => "feature"
  | background => "background"
  | scenario => "scenario"
  | scenarioOutline => "scenario_outline"
  | examples => "examples"
  | step .givenStep => "given"
  | step .whenStep => "when"
  | step .thenStep => "then"
  | step .andStep => "and"
  | step .butStep => "but"

/-- The role named in a keyword document; outlines have two spellings. -/
def ofKey? (k : Text) : Option Role :=
  if k = "scenarioOutline".toList then some scenarioOutline
  else all.find? (fun r => r.key.toList == k)

end Role

/-- The synonyms of one language, by role. -/
structure Dialect where
  feature : List Text := []
  background : List Text := []
  scenario : List Text := []
  scenarioOutline : List Text := []
  examples : List Text := []
  givenSteps : List Text := []
  whenSteps : List Text := []
  thenSteps : List Text := []
  andSteps : List Text := []
  butSteps : List Text := []
deriving DecidableEq, Repr

namespace Dialect

/-- The synonyms of a role. -/
def words (d : Dialect) : Role → List Text
  | .feature => d.feature
  | .background => d.background
  | .scenario => d.scenario
  | .scenarioOutline => d.scenarioOutline
  | .examples => d.examples
  | .step .givenStep => d.givenSteps
  | .step .whenStep => d.whenSteps
  | .step .thenStep => d.thenSteps
  | .step .andStep => d.andSteps
  | .step .butStep => d.butSteps

/-- The dialect with the given synonyms. -/
def ofWords (f : Role → List Text) : Dialect where
  feature := f .feature
  background := f .background
  scenario := f .scenario
  scenarioOutline := f .scenarioOutline
  examples := f .examples
  givenSteps := f (.step .givenStep)
  whenSteps := f (.step .whenStep)
  thenSteps := f (.step .thenStep)
  andSteps := f (.step .andStep)
  butSteps := f (.step .butStep)

@[simp] theorem words_ofWords (f : Role → List Text) (r : Role) : (ofWords f).words r = f r := by
  cases r with
  | step family => cases family <;> rfl
  | _ => rfl

/-- A dialect is its synonyms. -/
theorem ofWords_words (d : Dialect) : ofWords d.words = d := rfl

/-- The first role without a synonym. -/
def missing? (d : Dialect) : Option Role := Role.all.find? (fun r => (d.words r).isEmpty)

end Dialect

end Gherkin
