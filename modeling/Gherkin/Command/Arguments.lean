import Gherkin.Command.Settings

/-!
# Command lines

A command line names a command, `tokens` or `tree`, and the document that it
reads.  Three options with a value may stand in front of the command or behind
it, once in either place; the place behind the command wins.  `tree` takes the
flag `--json`.  In front of the command `--version` asks for nothing else.

Arguments are looked at from left to right, and the first one that does not fit
spoils the whole line, unless the version was asked for before.

`read` stands for the parser that is derived from `Cli`.  What differs: help is left out.
Where `--help`, `-h` or the command `help` is given the program shows a help text with
status 0, and `read` finds a misfit.
-/

namespace Gherkin

/-- What the program is asked to show. -/
inductive Command where
  | tokens (file : Text)
  | tree (file : Text) (json : Bool)
deriving DecidableEq, Repr

namespace Command

/-- The document that is read. -/
def file : Command → Text
  | tokens file => file
  | tree file _ => file

end Command

/-- A command with the settings given beside it. -/
structure Invocation where
  overrides : Overrides
  command : Command
deriving DecidableEq, Repr

/-- What a command line asks for. -/
inductive Request where
  | version
  | run (i : Invocation)
deriving DecidableEq, Repr

namespace Arguments

/-- An option with a value. -/
inductive OptionName where
  | logLevel
  | keywords
  | baseLocale
deriving DecidableEq, Repr

/-- The option of that name. -/
def OptionName.ofText? (s : Text) : Option OptionName :=
  if s = "log-level".toList then some .logLevel
  else if s = "keywords".toList then some .keywords
  else if s = "base-locale".toList then some .baseLocale
  else none

/-- An argument by its form. -/
inductive Form where
  /-- Two hyphens: all that follows are words. -/
  | terminator
  /-- A name after two hyphens, and what stands behind an equals sign. -/
  | long (name : Text) (value : Option Text)
  /-- Letters after one hyphen. -/
  | short (letters : Text)
  | word (w : Text)
deriving DecidableEq, Repr

/-- A name and what stands behind the first equals sign. -/
def nameAndValue (s : Text) : Text × Option Text :=
  match s.dropWhile (· != '=') with
  | _ :: value => (s.takeWhile (· != '='), some value)
  | [] => (s, none)

/-- The form of an argument. -/
def form : Text → Form
  | ['-', '-'] => .terminator
  | '-' :: '-' :: s => .long (nameAndValue s).1 (nameAndValue s).2
  | '-' :: c :: s => .short (c :: s)
  | w => .word w

/-- An argument by its meaning; an option together with its value. -/
inductive Item where
  | version
  | json
  | option (name : OptionName) (value : Text)
  | word (w : Text)
  | misfit
deriving DecidableEq, Repr

/-- The meaning of an argument that takes nothing from the next one. -/
def itemOf : Form → Item
  | .word w => .word w
  | .short ('V' :: _) => .version
  | .long name none =>
    if name = "version".toList then .version
    else if name = "json".toList then .json
    else .misfit
  | .long name (some value) =>
    match OptionName.ofText? name with
    | some o => .option o value
    | none => .misfit
  | _ => .misfit

/-- The option whose value is the next argument. -/
def openOption? : Form → Option OptionName
  | .long name none => OptionName.ofText? name
  | _ => none

/-- The meaning of a list of arguments, in which `afterCommand` tells whether
the command has been named: only then are there words after two hyphens. -/
def items (afterCommand : Bool) : List Text → List Item
  | [] => []
  | [a] =>
    match form a with
    | .terminator => if afterCommand then [] else [.misfit]
    | f => [itemOf f]
  | a :: b :: rest =>
    match form a with
    | .terminator => if afterCommand then .word b :: rest.map .word else [.misfit]
    | f =>
      match openOption? f with
      | some o =>
        match form b with
        | .word value => .option o value :: items afterCommand rest
        | _ => [.misfit]
      | none =>
        match itemOf f with
        | .word w => .word w :: items true (b :: rest)
        | item => item :: items afterCommand (b :: rest)

/-- Overrides with one more option, which must not be there yet and must have a
value that it can take. -/
def withOption (o : Overrides) (value : Text) : OptionName → Option Overrides
  | .logLevel =>
    match o.logLevel, LogLevel.ofName? value with
    | none, .ok level => some { o with logLevel := some level }
    | _, _ => none
  | .keywords =>
    if o.keywords.isNone && !value.isEmpty then some { o with keywords := some value } else none
  | .baseLocale =>
    if o.baseLocale.isNone then some { o with baseLocale := some value } else none

/-- What stands behind the command. -/
structure Operands where
  overrides : Overrides := {}
  file : Option Text := none
  json : Bool := false

/-- Operands with one more item. -/
def withItem (allowsJson : Bool) (o : Operands) : Item → Option Operands
  | .option name value =>
    (withOption o.overrides value name).map fun overrides => { o with overrides := overrides }
  | .json => if allowsJson && !o.json then some { o with json := true } else none
  | .word w => if o.file.isNone && !w.isEmpty then some { o with file := some w } else none
  | .version | .misfit => none

/-- The overrides of both places, those behind the command first. -/
def merge (outer inner : Overrides) : Overrides where
  logLevel := inner.logLevel.or outer.logLevel
  keywords := inner.keywords.or outer.keywords
  baseLocale := inner.baseLocale.or outer.baseLocale

/-- The command named by a word, with what stands behind it. -/
def command (outer : Overrides) (name : Text) (behind : List Item) : Option Request :=
  if name = "tokens".toList then do
    let o ← behind.foldlM (withItem false) {}
    let file ← o.file
    some (.run ⟨merge outer o.overrides, .tokens file⟩)
  else if name = "tree".toList then do
    let o ← behind.foldlM (withItem true) {}
    let file ← o.file
    some (.run ⟨merge outer o.overrides, .tree file o.json⟩)
  else none

/-- What the items of a command line ask for. -/
def request (o : Overrides) : List Item → Option Request
  | .version :: _ => some .version
  | .option name value :: is =>
    match withOption o value name with
    | some o => request o is
    | none => none
  | .word name :: is => command o name is
  | _ => none

/-- What a command line asks for; `none` when it does not fit. -/
def read (args : List Text) : Option Request := request {} (items false args)

end Arguments

end Gherkin
