import Gherkin.Json.Value

/-!
# Printing JSON

`pretty` writes one item or member on a line, two spaces deeper than the
bracket or brace around it; an empty array or object stays on one line.  Inside
strings only the quote, the backslash and the control characters below the
space are escaped.
-/

namespace Gherkin.Json

/-- One character inside a string. -/
def escaped (c : Char) : Text :=
  if c = '"' then "\\\""
  else if c = '\\' then "\\\\"
  else if c = '\n' then "\\n"
  else if c = '\r' then "\\r"
  else if c = '\t' then "\\t"
  else if c = '\x08' then "\\b"
  else if c = '\x0c' then "\\f"
  else if c.toNat < 0x20 then
    "\\u00" ++ [Nat.digitChar (c.toNat / 16), Nat.digitChar (c.toNat % 16)]
  else [c]

/-- A string with its quotes. -/
def prettyString : Option Text → Text
  | some s => ['"'] ++ s.flatMap escaped ++ ['"']
  | none => "\"\\ud800\""

/-- The white space in front of a line. -/
def margin (depth : Nat) : Text := List.replicate (2 * depth) ' '

/-- Parts between brackets, each on a line of its own. -/
def enclosed (first last : Char) (depth : Nat) : List Text → Text
  | [] => [first, last]
  | parts =>
    [first, '\n'] ++ Text.join [',', '\n'] (parts.map (margin (depth + 1) ++ ·))
      ++ ['\n'] ++ margin depth ++ [last]

mutual

/-- The value as text, when its brackets close at the given depth. -/
def pretty (depth : Nat) : Json → Text
  | null => "null"
  | bool true => "true"
  | bool false => "false"
  | number literal => literal
  | string content => prettyString content
  | array items => enclosed '[' ']' depth (prettyItems (depth + 1) items)
  | object members => enclosed '\x7b' '\x7d' depth (prettyMembers (depth + 1) members)

/-- The items of an array, one text each. -/
def prettyItems (depth : Nat) : List Json → List Text
  | [] => []
  | item :: items => pretty depth item :: prettyItems depth items

/-- The members of an object, one text each. -/
def prettyMembers (depth : Nat) : List (Option Text × Json) → List Text
  | [] => []
  | (name, value) :: members =>
    (prettyString name ++ [':', ' '] ++ pretty depth value) :: prettyMembers depth members

end

end Gherkin.Json
