import Gherkin.Token

/-!
# Token listings

A listing shows one token on a line, in four columns with tabs between them:
line, kind, keyword, text.  In the text, a line feed, a tab or a backslash is
written as two characters, so that a token never takes more than its line.

`listings` mirrors `write_tokens`, and `Text.listed` its `escape`.
-/

namespace Gherkin

/-- One character of the text column. -/
def Text.listed (c : Char) : Text :=
  if c = '\\' then ['\\', '\\']
  else if c = '\n' then ['\\', 'n']
  else if c = '\t' then ['\\', 't']
  else [c]

namespace Token

/-- The line of a listing that shows the token. -/
def listing (t : Token) : Text :=
  Nat.toDigits 10 t.line ++ ['\t'] ++ t.kind.name.toList ++ ['\t'] ++ t.keyword ++ ['\t']
    ++ t.text.flatMap Text.listed ++ ['\n']

/-- The listing of a sequence of tokens. -/
def listings (ts : List Token) : Text := ts.flatMap listing

end Token

end Gherkin
