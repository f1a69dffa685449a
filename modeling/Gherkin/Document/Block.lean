import Gherkin.Token
import Gherkin.Text.Lines
import Gherkin.Text.Blank

/-!
# Text blocks

Directly below a step, a line that starts with three quotes opens a text block,
which ends on the next line that ends in the same three quotes; that can be the
opening line itself.  Between the two nothing has a meaning of its own.  What
stands beside the quotes belongs to the block, unless it is white space.

`start?` and `addLine` mirror `open` and `feed` of `Multiline`.  What differs: an
`OpenBlock` is a block that is open, so `is_open` and `unclosed_line` ask nothing that
its type does not say.
-/

namespace Gherkin

/-- A text block that is not closed yet: the quotes that opened it, the number
of the opening line, and the lines so far. -/
structure OpenBlock where
  delimiter : Text
  line : Nat
  body : List Text
deriving DecidableEq, Repr

/-- A text block after a line of it. -/
inductive BlockState where
  | unfinished (b : OpenBlock)
  | finished (t : Token)
deriving DecidableEq, Repr

namespace OpenBlock

/-- The quotes that may open a block. -/
def delimiters : List Text := ["\"\"\"", "'''"]

/-- The token of a finished block with the given lines. -/
def token (b : OpenBlock) (body : List Text) : Token := ⟨.block, [], Text.ofLines body, b.line⟩

/-- Add a line to a block.  Of the last line, what stands before the quotes is
part of the block if it is not blank. -/
def addLine (b : OpenBlock) (s : Text) : BlockState :=
  match Text.before? b.delimiter s with
  | none => .unfinished { b with body := b.body ++ [s] }
  | some s =>
    match Text.trimEnd s with
    | [] => .finished (b.token b.body)
    | last => .finished (b.token (b.body ++ [last]))

/-- What follows the quotes at the start of a line, with those quotes. -/
def opening? (s : Text) : Option (Text × Text) :=
  delimiters.findSome? fun d => (Text.after? d s).map (d, ·)

/-- The block that a line opens. -/
def start? (line : Nat) (s : Text) : Option BlockState :=
  (opening? s).map fun (delimiter, rest) =>
    match Text.trimStart rest with
    | [] => .unfinished ⟨delimiter, line, []⟩
    | first => addLine ⟨delimiter, line, []⟩ first

end OpenBlock

end Gherkin
