import Gherkin.Text.Blank

/-!
# Language directives

A comment of the form `# language: code` names the locale of its document.  The
word may be in any ASCII case and white space may stand anywhere around `#`,
the word, the colon and the code, but the code itself is one piece.  Of several
directives the last one counts, wherever it stands.

`directive?` mirrors `language_directive`, `lastDirective?` mirrors `last_directive`.  What
differs: the word is cut off by its characters and not by its bytes.
-/

namespace Gherkin.Line

/-- What every directive says in front of its colon. -/
def directiveWord : Text := "language"

/-- The code in what follows the colon of a directive. -/
def directiveCode? (s : Text) : Option Text :=
  let code := Text.trim s
  if code.isEmpty || code.any Text.isBlank then none else some code

/-- The locale code that a line names, if the line is a directive. -/
def directive? (line : Text) : Option Text :=
  match Text.trim line with
  | '#' :: s =>
    let s := Text.trimStart s
    if Text.sameIgnoringCase (s.take directiveWord.length) directiveWord then
      match Text.trimStart (s.drop directiveWord.length) with
      | ':' :: s => directiveCode? s
      | _ => none
    else none
  | _ => none

/-- The code that the last directive among some lines names. -/
def lastDirective? (lines : List Text) : Option Text := (lines.filterMap directive?).getLast?

end Gherkin.Line
