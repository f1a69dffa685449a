import Gherkin.Command.Arguments
import Gherkin.Feature.Dump
import Gherkin.Feature.Json
import Gherkin.Token.Listing

/-!
# Running a command

A run is a function of the command line, the environment and the files.  The
configuration comes first: if it fails the status is 2, whatever the document
is.  If the document cannot be read the status is 1.  Output is given only by a
run that succeeds, and then all of it.

`Invocation.outcome` mirrors `main` with `configure` and `run`, `Command.perform`
mirrors `read_document` with the match on the command that follows it.  What differs:
- The output is a value, so that writing it cannot fail.
- Which patterns of a dialect compile is a parameter, the `PatternCompiler`.
- Nothing is logged: the log level is read and has no effect.
-/

namespace Gherkin

/-- Why the document of a command gives no result. -/
inductive RunFailure where
  | unreadable (file : Text) (cause : ReadFailure)
  | tokenizing (file : Text) (e : ParseError)
  | parsing (file : Text) (e : ParseError)
deriving DecidableEq, Repr

namespace RunFailure

/-- The error behind the failure. -/
def error : RunFailure → CommandError
  | unreadable file cause => .unreadable file cause
  | tokenizing _ e => .document e
  | parsing _ e => .document e

/-- What was tried, if the error behind the failure does not say it. -/
def context : RunFailure → List Text
  | unreadable _ _ => []
  | tokenizing file _ => ["failed to tokenize " ++ file]
  | parsing file _ => ["failed to parse " ++ file]

/-- What the failure says: what was tried, the error and its causes. -/
def message (f : RunFailure) : Text := Text.join [':', ' '] (f.context ++ f.error.chain)

end RunFailure

/-- Why a run gives no result. -/
inductive Failure where
  | usage
  | configuration (e : CommandError)
  | run (f : RunFailure)
deriving DecidableEq, Repr

/-- The end of a run: its status, its output, and why it failed if it did. -/
structure Outcome where
  status : Nat
  output : Text
  failure : Option Failure
deriving DecidableEq, Repr

namespace Command

/-- The output of a command on the text of its document. -/
def render (t : DialectTable) (source : Text) (compiler : PatternCompiler) :
    Command → Except RunFailure Text
  | tokens file =>
    ((t.tokenizeText source compiler).map Token.listings).mapError (.tokenizing file)
  | tree file json =>
    ((t.parseText source compiler).map fun fs =>
      if json then Feature.jsonDocument fs else dump fs).mapError (.parsing file)

/-- The output of a command. -/
def perform (t : DialectTable) (read : FileReader) (compiler : PatternCompiler) (c : Command) :
    Except RunFailure Text :=
  match read c.file with
  | .error cause => .error (.unreadable c.file cause)
  | .ok source => c.render t source compiler

end Command

namespace Invocation

/-- The settings of an invocation. -/
def settings (i : Invocation) (env : Environment) : Except CommandError Settings :=
  ((Settings.ofEnvironment env).map (·.override i.overrides)).mapError .setting

/-- The dialect table of an invocation. -/
def table (i : Invocation) (env : Environment) (read : FileReader) :
    Except CommandError DialectTable :=
  match i.settings env with
  | .error e => .error e
  | .ok s => s.table read

/-- The end of an invocation. -/
def outcome (i : Invocation) (env : Environment) (read : FileReader)
    (compiler : PatternCompiler) : Outcome :=
  match i.table env read with
  | .error e => ⟨2, [], some (.configuration e)⟩
  | .ok t =>
    match i.command.perform t read compiler with
    | .error f => ⟨1, [], some (.run f)⟩
    | .ok output => ⟨0, output, none⟩

/-- The files that an invocation may read. -/
def files (i : Invocation) (env : Environment) : List Text :=
  match i.settings env with
  | .error _ => []
  | .ok s => s.keywords.toList ++ [i.command.file]

end Invocation

/-- What the program says about itself. -/
def versionText : Text := "furrow 0.1.0\n"

/-- The end of a run of the program. -/
def outcome (args : List Text) (env : Environment) (read : FileReader)
    (compiler : PatternCompiler) : Outcome :=
  match Arguments.read args with
  | none => ⟨2, [], some .usage⟩
  | some .version => ⟨0, versionText, none⟩
  | some (.run i) => i.outcome env read compiler

end Gherkin
