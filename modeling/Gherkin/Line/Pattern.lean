import Gherkin.Line.Keyword

/-!
# Keywords as patterns

What a keyword asks of a line can also be written down as a pattern: the keyword
letter for letter, what may stand between it and the text, and the text up to the
end of the line.  A pattern may match the start of a text in several ways.  They
are ordered by preference, as a search would try them that goes back to its last
choice whenever it is stuck, and only the first way counts.

`Line.firstCapture?` tries the patterns of all synonyms one after the other, longer
keywords before shorter ones, and takes the first that matches.

A library that searches for patterns compiles them beforehand and may refuse one, such
as the pattern of a keyword that is too long.  Which ones it refuses, and in what words,
is a parameter: a `PatternCompiler`.

`keywordPattern` mirrors `KeywordMatcher.compile`, `capture?` its `captures`, `chain` the
sorting at the end of `compile_group`, and `PatternCompiler.refusal?` the order in which
`MatcherChain.compile` meets a failure.  What differs:
- A pattern is data with its ways to match, where the program has the compiled form of a
  regular expression.
- `PatternCompiler.limited` counts the bytes of the keyword only and leaves out the few
  states that the compiled form has beside them.
-/

namespace Gherkin

/-- A pattern for the start of a text. -/
inductive Pattern where
  /-- Nothing at all. -/
  | nothing
  /-- One character of a class. -/
  | one (p : Char → Bool)
  /-- Characters of a class, as many as possible. -/
  | many (p : Char → Bool)
  /-- A pattern and another one behind it. -/
  | seq (a b : Pattern)
  /-- A pattern or, if that fails, another one. -/
  | either (a b : Pattern)
  /-- The end of the text. -/
  | theEnd
  /-- A pattern that notes what it matched. -/
  | group (a : Pattern)

namespace Pattern

/-- One way to match the start of a text. -/
structure Way where
  taken : Text
  noted : Option Text
  rest : Text

/-- All ways to split off characters of a class, the longest first. -/
def runs (p : Char → Bool) : Text → List (Text × Text)
  | [] => [([], [])]
  | c :: s =>
    if p c then (runs p s).map (fun v => (c :: v.1, v.2)) ++ [([], c :: s)] else [([], c :: s)]

/-- All ways to match the start of a text, in the order of preference. -/
def ways : Pattern → Text → List Way
  | nothing, s => [⟨[], none, s⟩]
  | one _, [] => []
  | one p, c :: s => if p c then [⟨[c], none, s⟩] else []
  | many p, s => (runs p s).map fun v => ⟨v.1, none, v.2⟩
  | seq a b, s =>
    (a.ways s).flatMap fun v =>
      (b.ways v.rest).map fun w => ⟨v.taken ++ w.taken, w.noted.or v.noted, w.rest⟩
  | either a b, s => a.ways s ++ b.ways s
  | theEnd, s => if s.isEmpty then [⟨[], none, []⟩] else []
  | group a, s => (a.ways s).map fun w => { w with noted := some w.taken }

theorem ways_seq (a b : Pattern) (s : Text) :
    (seq a b).ways s = (a.ways s).flatMap fun v =>
      (b.ways v.rest).map fun w => ⟨v.taken ++ w.taken, w.noted.or v.noted, w.rest⟩ := by
  rw [ways]

theorem ways_either (a b : Pattern) (s : Text) : (either a b).ways s = a.ways s ++ b.ways s := by
  rw [ways]

/-- What the first way to match the start of a text notes. -/
def capture? (a : Pattern) (s : Text) : Option Text := (a.ways s).head?.bind Way.noted

/-- A given text. -/
def literal (k : Text) : Pattern := k.foldr (fun c a => .seq (.one (· == c)) a) .nothing

/-- White space, if there is any. -/
def blanks : Pattern := .many Text.isBlank

/-- White space. -/
def someBlanks : Pattern := .seq (.one Text.isBlank) blanks

def colon : Pattern := .one (· == ':')

/-- All that is left, on a single line. -/
def lastLine : Pattern := .seq (.group (.many (· != '\n'))) .theEnd

end Pattern

namespace Line

/-- What may stand between a keyword and the text behind it. -/
def separator (role : Role) (keyword : Text) : Pattern :=
  match role.isStep, wantsSeparator keyword with
  | false, true =>
    .either (.seq .blanks (.seq .colon .blanks)) (.either .someBlanks .theEnd)
  | false, false => .seq .blanks (.seq (.either .colon .nothing) .blanks)
  | true, true => .either .someBlanks .theEnd
  | true, false => .blanks

/-- The pattern of a line that starts with the given keyword. -/
def keywordPattern (role : Role) (keyword : Text) : Pattern :=
  .seq (.literal keyword) (.seq (separator role keyword) .lastLine)

/-- The text of a line that has the pattern of the given keyword. -/
def capture? (role : Role) (keyword line : Text) : Option Text :=
  ((keywordPattern role keyword).capture? line).map Text.trim

/-- The synonyms of the given roles in the order in which their patterns are tried:
longer ones first, and equally long ones as the dialect lists them. -/
def chain (d : Dialect) (roles : List Role) : List (Role × Text) :=
  (synonyms d roles).mergeSort fun a b => decide (b.2.length ≤ a.2.length)

/-- The keyword of one of the given roles whose pattern is the first to match a line. -/
def firstCapture? (d : Dialect) (roles : List Role) (line : Text) : Option KeywordMatch :=
  (chain d roles).findSome? fun (role, keyword) =>
    (capture? role keyword line).map fun payload => ⟨role, keyword, payload⟩

end Line

/-- What a library of patterns says against the pattern of a keyword, if it refuses it. -/
abbrev PatternCompiler := Role → Text → Option Text

namespace PatternCompiler

/-- A library that takes every pattern. -/
def unlimited : PatternCompiler := fun _ _ => none

/-- The bytes that a compiled pattern may take. -/
def sizeLimit : Nat := 10485760

/-- The bytes that a compiled pattern takes for each byte of its keyword. -/
def stateSize : Nat := 32

/-- What is said against a pattern whose compiled form is too large. -/
def tooLarge : Text :=
  "Compiled regex exceeds size limit of " ++ Nat.toDigits 10 sizeLimit ++ " bytes."

/-- The bytes of a keyword. -/
def keywordSize (keyword : Text) : Nat := keyword.foldr (fun c n => c.utf8Size + n) 0

/-- A library that refuses the patterns whose compiled form is too large, and no others. -/
def limited : PatternCompiler := fun _ keyword =>
  if stateSize * keywordSize keyword ≤ sizeLimit then none else some tooLarge

/-- What is said against the first pattern of a dialect that is refused.  Structural
keywords come before step keywords, and the synonyms of a role as the dialect lists them. -/
def refusal? (compiler : PatternCompiler) (d : Dialect) : Option Text :=
  (Line.synonyms d Role.all).findSome? fun (role, keyword) => compiler role keyword

@[simp] theorem refusal?_unlimited (d : Dialect) : unlimited.refusal? d = none :=
  List.findSome?_eq_none_iff.2 fun _ _ => rfl

end PatternCompiler

end Gherkin
