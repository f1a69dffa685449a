import Gherkin.Dialect.Basic
import Gherkin.Text.Word

/-!
# Lines that start with a keyword

A keyword applies to a line that starts with it, if what follows can be told
apart from it.  Behind a keyword that ends in a letter or digit of a script that
separates its words there must be white space or the end of the line, or, when
the keyword is structural, a colon.  What follows is the text of the line,
without the colon that may stand behind a structural keyword and without white
space around it; it must be a single line.

Where several synonyms apply, the longest is meant: `match?` collects what
applies in the order of the roles and takes the longest keyword, of two equal
ones that of the earlier role.

`wantsSeparator` mirrors `needs_separator`, and `match?` mirrors `structural` and `step` of
`MatcherChain`.  What differs:
- The program compiles a pattern for each synonym and takes the first that matches,
  longer ones first.  Here it is said what such a pattern asks of a line; the patterns
  themselves are in `Gherkin.Line.Pattern`, and on trimmed lines both agree.
- A synonym whose pattern is refused has no place here.  Reading asks a
  `PatternCompiler` beforehand and fails if there is one.
-/

namespace Gherkin

/-- A keyword found at the start of a line, and the text behind it. -/
structure KeywordMatch where
  role : Role
  keyword : Text
  payload : Text
deriving DecidableEq, Repr

namespace Line

/-- Scripts from here on write words without a separator between them. -/
def firstUnseparated : Nat := 0x2E80

/-- Whether a keyword runs into what follows unless something separates them. -/
def wantsSeparator (keyword : Text) : Bool :=
  match keyword.getLast? with
  | some c => Text.isAlphanumeric c && c.toNat < firstUnseparated
  | none => false

/-- Whether `rest`, which follows a keyword, starts with a separator. -/
def isSeparated (role : Role) (rest : Text) : Bool :=
  match rest with
  | [] => true
  | c :: _ => Text.isBlank c || (c == ':' && !role.isStep)

/-- The text of a line whose keyword is followed by `rest`. -/
def payload (role : Role) (rest : Text) : Text :=
  if role.isStep then Text.trim rest
  else
    match Text.trimStart rest with
    | ':' :: s => Text.trim s
    | _ => Text.trim rest

/-- The text of a line that starts with the given keyword; `none` when the
keyword does not apply. -/
def payloadAfter? (role : Role) (keyword line : Text) : Option Text :=
  match Text.after? keyword line with
  | none => none
  | some rest =>
    if wantsSeparator keyword && !isSeparated role rest then none
    else if (payload role rest).contains '\n' then none
    else some (payload role rest)

/-- All synonyms of the given roles, in order. -/
def synonyms (d : Dialect) (roles : List Role) : List (Role × Text) :=
  roles.flatMap fun r => (d.words r).map (r, ·)

/-- The match with the longest keyword, of equal ones the first. -/
def longest? : List KeywordMatch → Option KeywordMatch
  | [] => none
  | m :: ms =>
    match longest? ms with
    | none => some m
    | some n => if n.keyword.length ≤ m.keyword.length then some m else some n

/-- What the synonyms of the given roles make of a line. -/
def candidates (d : Dialect) (roles : List Role) (line : Text) : List KeywordMatch :=
  (synonyms d roles).filterMap fun (role, keyword) =>
    (payloadAfter? role keyword line).map fun payload => ⟨role, keyword, payload⟩

/-- The keyword of one of the given roles that a line starts with. -/
def match? (d : Dialect) (roles : List Role) (line : Text) : Option KeywordMatch :=
  longest? (candidates d roles line)

end Line

end Gherkin
