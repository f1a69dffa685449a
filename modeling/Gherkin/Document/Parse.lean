import Gherkin.Document.Scan
import Gherkin.Dialect.Table
import Gherkin.Line.Directive
import Gherkin.Line.Pattern
import Gherkin.Feature.Assembly

/-!
# Reading a document

A document is a list of lines.  Its locale is that of its last language
directive, or else the base of the dialect table.  Reading fails when the table
has no dialect for the locale, and when a pattern of that dialect is refused.
`tokenize` gives the tokens and `parse` the feature trees, `tokenizeEvents` and
`parseEvents` what is reported meanwhile.

`localeOf` mirrors `resolve_locale`, `tokenize` the function of that name with the
call of `MatcherChain.compile` in front of the scan, `tokenizeText` mirrors
`tokenize_str`, and `parse` and `parseText` mirror `parse_lines` and `parse`.  What
differs:
- Whether the patterns compile is up to the `PatternCompiler`, the last argument of
  each function.  Where it is left out every pattern is taken; a run that succeeds
  with another compiler gives the same.
- What is reported is computed beside the tokens instead of being sent to a subscriber.
-/

namespace Gherkin

/-- Why a document cannot be read. -/
inductive ParseError where
  /-- The table has no dialect for the locale of the document. -/
  | localeNotFound (locale : Text)
  /-- A pattern of the dialect is refused, in these words. -/
  | matcher (words : Text)
deriving DecidableEq, Repr

/-- What the error says. -/
def ParseError.message : ParseError → Text
  | localeNotFound locale => "no keywords defined for locale `" ++ locale ++ "`"
  | matcher words => words

/-- A dialect whose patterns all compile. -/
def PatternCompiler.compile (compiler : PatternCompiler) (d : Dialect) :
    Except ParseError Dialect :=
  match compiler.refusal? d with
  | some words => .error (.matcher words)
  | none => .ok d

namespace DialectTable

/-- The locale of a document. -/
def localeOf (t : DialectTable) (lines : List Text) : Text :=
  (Line.lastDirective? lines).getD t.base

/-- The dialect of a document. -/
def dialectOf (t : DialectTable) (lines : List Text) : Except ParseError Dialect :=
  match t.lookup? (t.localeOf lines) with
  | some d => .ok d
  | none => .error (.localeNotFound (t.localeOf lines))

/-- The dialect of a document, once its patterns are compiled. -/
def compiledDialectOf (t : DialectTable) (lines : List Text) (compiler : PatternCompiler) :
    Except ParseError Dialect :=
  (t.dialectOf lines).bind compiler.compile

/-- The tokens of a document. -/
def tokenize (t : DialectTable) (lines : List Text)
    (compiler : PatternCompiler := PatternCompiler.unlimited) : Except ParseError (List Token) :=
  (t.compiledDialectOf lines compiler).map fun d => (Line.scan d lines).filterMap Finding.token?

/-- What is reported while a document is tokenized. -/
def tokenizeEvents (t : DialectTable) (lines : List Text)
    (compiler : PatternCompiler := PatternCompiler.unlimited) : List Event :=
  .tokenizeSpan ::
    match t.compiledDialectOf lines compiler with
    | .error _ => []
    | .ok d =>
      .tokenizing (t.localeOf lines) lines.length
        :: (Line.scan d lines).filterMap Finding.event?

/-- The features of a document. -/
def parse (t : DialectTable) (lines : List Text)
    (compiler : PatternCompiler := PatternCompiler.unlimited) : Except ParseError (List Feature) :=
  (t.tokenize lines compiler).map build

/-- What is reported while a document is parsed. -/
def parseEvents (t : DialectTable) (lines : List Text)
    (compiler : PatternCompiler := PatternCompiler.unlimited) : List Event :=
  t.tokenizeEvents lines compiler ++
    match t.tokenize lines compiler with
    | .error _ => []
    | .ok ts => buildEvents ts

/-- The tokens of a document that is given as one text. -/
def tokenizeText (t : DialectTable) (source : Text)
    (compiler : PatternCompiler := PatternCompiler.unlimited) : Except ParseError (List Token) :=
  t.tokenize (Text.lines source) compiler

/-- The features of a document that is given as one text. -/
def parseText (t : DialectTable) (source : Text)
    (compiler : PatternCompiler := PatternCompiler.unlimited) : Except ParseError (List Feature) :=
  t.parse (Text.lines source) compiler

/-- Without limits the patterns of every dialect compile. -/
@[simp] theorem compiledDialectOf_unlimited (t : DialectTable) (lines : List Text) :
    t.compiledDialectOf lines PatternCompiler.unlimited = t.dialectOf lines := by
  rw [compiledDialectOf]
  cases t.dialectOf lines with
  | error e => rfl
  | ok d =>
    show PatternCompiler.unlimited.compile d = .ok d
    rw [PatternCompiler.compile, PatternCompiler.refusal?_unlimited]

theorem tokenize_eq (t : DialectTable) (lines : List Text) :
    t.tokenize lines =
      (t.dialectOf lines).map fun d => (Line.scan d lines).filterMap Finding.token? := by
  rw [tokenize, compiledDialectOf_unlimited]

end DialectTable

end Gherkin
