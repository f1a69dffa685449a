import Gherkin.Text.Blank

/-!
# Step families

A step is written with a keyword of one of five families.  Three of them, the
primary ones, say what a step is for; the two conjunctions continue the step
before, so that what such a step is for depends on the steps in front of it.
`resolve` carries that dependency.

`StepFamily` mirrors `StepKeyword` and `ofName?` its `from_str`.  What differs: `resolve`
there also updates the family that it is handed; here `carry` says what that family
becomes.
-/

namespace Gherkin

/-- The family of a step keyword. -/
inductive StepFamily where
  | givenStep
  | whenStep
  | thenStep
  | andStep
  | butStep
deriving DecidableEq, Repr

namespace StepFamily

/-- All families, in the order in which keywords are tried. -/
def all : List StepFamily := [givenStep, whenStep, thenStep, andStep, butStep]

/-- The English name of the family. -/
def name : StepFamily → String
  | givenStep => "Given"
  | whenStep => "When"
  | thenStep => "Then"
  | andStep => "And"
  | butStep => "But"

/-- A conjunction continues the step before it. -/
def isConjunction : StepFamily → Bool
  | andStep | butStep => true
  | givenStep | whenStep | thenStep => false

/-- What a step of family `f` is for, when `previous` is the last primary family
before it.  A conjunction with nothing in front sets something up. -/
def resolve (f : StepFamily) (previous : Option StepFamily) : StepFamily :=
  if f.isConjunction then previous.getD givenStep else f

/-- The last primary family after a step of family `f`. -/
def carry (f : StepFamily) (previous : Option StepFamily) : Option StepFamily :=
  if f.isConjunction then previous else some f

/-- The family with the given English name, in any ASCII case and with white
space around it; on failure, the name that was looked for. -/
def ofName? (s : Text) : Except Text StepFamily :=
  let wanted := Text.trim s
  match all.find? (fun f => Text.sameIgnoringCase wanted f.name) with
  | some f => .ok f
  | none => .error wanted

/-- Why there is no family of that name. -/
def unknownNameMessage (wanted : Text) : Text := "invalid step keyword: " ++ wanted

end StepFamily

end Gherkin
