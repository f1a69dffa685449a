import Gherkin.StepFamily
import Gherkin.Text.Quoted

/-!
# Tokens

A document is read as a flat sequence of tokens, one for each line that says
something, except that a line of tags gives a token per tag and that the lines
of a description or of a text block give one token together.  A token knows the
number of its line in the document, counted from zero, or of its first line.
-/

namespace Gherkin

/-- What a token is. -/
inductive TokenKind where
  | feature
  | background
  | scenario
  | scenarioOutline
  | examples
  | tag
  | step (family : StepFamily)
  | description
  | row
  | block
deriving DecidableEq, Repr

namespace TokenKind

/-- The name of the kind; all steps have one name. -/
def name : TokenKind → String
  | feature => "feature"
  | background => "background"
  | scenario => "scenario"
  | scenarioOutline => "scenario_outline"
  | examples => "examples"
  | tag => "tag"
  | step _ => "step"
  | description => "feature_description"
  | row => "row"
  | block => "multiline"

/-- The kinds of token that open something with steps of its own. -/
def isContainer : TokenKind → Bool
  | background | scenario | scenarioOutline => true
  | _ => false

/-- Steps of any family. -/
def isStep : TokenKind → Bool
  | step _ => true
  | _ => false

end TokenKind

/-- One unit of a document: what it is, the keyword it was written with (empty
for free text), its text, and its line. -/
structure Token where
  kind : TokenKind
  keyword : Text
  text : Text
  line : Nat
deriving DecidableEq, Repr

namespace Token

/-- The keyword of every tag. -/
def tagMark : Text := ['@']

/-- A token as it is named in a message: its line, its kind and its text. -/
def display (t : Token) : Text :=
  Nat.toDigits 10 t.line ++ [':'] ++ t.kind.name.toList ++ [' '] ++ Text.quoted t.text

end Token

end Gherkin
