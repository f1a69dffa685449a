import Gherkin.Document.Block
import Gherkin.Line.Shape
import Gherkin.Line.Row
import Gherkin.Event

/-!
# From lines to tokens

Scanning takes the lines of a document one after another.  Blank lines and
comments are left out beforehand, but keep their numbers.  What a free line
means depends on the lines before it only through a `Mode`: below a feature it
is description, below a step it may open a text block, in an open text block
every line belongs to the block, and elsewhere it is a table row or nothing.

A step of the scan gives the next mode and what is found, a token or an event;
`run` strings the steps together and `atEnd` says what is found at the end.

`advance` mirrors `Scanner.scan`, `pending` mirrors `flush_description`, `atEnd` mirrors
`finish`, and `effective` the test in the loop of `tokenize`.  What differs:
- The tokens so far are not part of the state.  Of these the program looks at the kind
  of the last one only, which is what a `ScanMode` knows.
- A report is found like a token instead of being sent to a subscriber.
-/

namespace Gherkin

/-- A line with its number in the document. -/
structure NumberedLine where
  number : Nat
  text : Text
deriving DecidableEq, Repr

/-- What a scan finds. -/
inductive Finding where
  | token (t : Token)
  | event (e : Event)
deriving DecidableEq, Repr

/-- What the lines so far mean for a free line. -/
inductive ScanMode where
  /-- Nothing in particular. -/
  | plain
  /-- A feature line came last, and then these lines of its description. -/
  | feature (description : List NumberedLine)
  /-- A step line came last. -/
  | step
  /-- A text block is open. -/
  | block (b : OpenBlock)
deriving DecidableEq, Repr

namespace Finding

def token? : Finding → Option Token
  | token t => some t
  | event _ => none

def event? : Finding → Option Event
  | token _ => none
  | event e => some e

end Finding

/-- The kind of token that a keyword of this role opens. -/
def Role.kind : Role → TokenKind
  | feature => .feature
  | background => .background
  | scenario => .scenario
  | scenarioOutline => .scenarioOutline
  | examples => .examples
  | step family => .step family

/-- The token of a line that starts with a keyword. -/
def KeywordMatch.token (m : KeywordMatch) (line : Nat) : Token :=
  ⟨m.role.kind, m.keyword, m.payload, line⟩

namespace ScanMode

/-- The mode behind a line that starts with a keyword. -/
def afterKeyword : Role → ScanMode
  | .feature => feature []
  | .step _ => step
  | _ => plain

/-- The description that is complete once something else follows. -/
def pending : ScanMode → List Finding
  | feature (first :: rest) =>
    [.token ⟨.description, [], Text.ofLines ((first :: rest).map (·.text)), first.number⟩]
  | _ => []

/-- The scan after a line of a text block. -/
def inBlock : BlockState → ScanMode × List Finding
  | .unfinished b => (block b, [])
  | .finished t => (plain, [.token t])

/-- A free line that no mode claims is a row or has no meaning. -/
def unclaimed (mode : ScanMode) (l : NumberedLine) : ScanMode × List Finding :=
  if Line.isRow l.text then (plain, [.token ⟨.row, [], l.text, l.number⟩])
  else (mode, [.event (.ignoredLine l.number)])

/-- A free line. -/
def free (l : NumberedLine) : ScanMode → ScanMode × List Finding
  | feature description => (feature (description ++ [l]), [])
  | step =>
    match OpenBlock.start? l.number l.text with
    | some state => inBlock state
    | none => unclaimed step l
  | mode => unclaimed mode l

/-- One line that is neither blank nor a comment. -/
def advance (d : Dialect) (l : NumberedLine) (mode : ScanMode) : ScanMode × List Finding :=
  match mode with
  | block b => inBlock (b.addLine l.text)
  | _ =>
    match Line.shape d l.text with
    | .keyworded m => (afterKeyword m.role, mode.pending ++ [.token (m.token l.number)])
    | .tags names =>
      (plain, mode.pending ++ names.map fun name => .token ⟨.tag, Token.tagMark, name, l.number⟩)
    | .free => free l mode

/-- All lines: the mode behind them and everything found. -/
def run (d : Dialect) : ScanMode → List NumberedLine → ScanMode × List Finding
  | mode, [] => (mode, [])
  | mode, l :: ls =>
    let next := advance d l mode
    let last := run d next.1 ls
    (last.1, next.2 ++ last.2)

/-- What is found at the end of the document. -/
def atEnd (mode : ScanMode) : List Finding :=
  match mode with
  | block b => [.event (.unclosedBlock b.line)]
  | _ => mode.pending

end ScanMode

namespace Line

/-- Whether a line without white space around it says anything. -/
def isEffective (line : Text) : Bool :=
  match line with
  | [] => false
  | c :: _ => c != '#'

/-- The lines that say something, without white space around them. -/
def effective (lines : List Text) : List NumberedLine :=
  ((lines.map Text.trim).zipIdx.map fun (text, number) => ⟨number, text⟩).filter
    (fun l => isEffective l.text)

/-- Everything found in the lines of a document. -/
def scan (d : Dialect) (lines : List Text) : List Finding :=
  let last := ScanMode.plain.run d (effective lines)
  last.2 ++ last.1.atEnd

end Line

end Gherkin
