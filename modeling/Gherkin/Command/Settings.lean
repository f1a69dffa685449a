import Gherkin.Command.Error
import Gherkin.Dialect.Standard
import Gherkin.Dialect.Document

/-!
# Settings

How much is logged, which keyword document is used, and which locale is the
base.  Every setting has a default, can be set in the environment, and can be
overridden after that.  A value from the environment is checked and cleaned; an
override is taken as it is.

`Settings` mirrors `CliConfig`, with `ofEnvironment`, `override`, `withLogLevel` and `table`
for its `from_lookup`, `apply_overrides`, `with_log_level` and `keyword_table`.
-/

namespace Gherkin

/-- How much is logged. -/
inductive LogLevel where
  | trace
  | debug
  | info
  | warn
  | error
deriving DecidableEq, Repr

namespace LogLevel

/-- The name of the level. -/
def name : LogLevel → String
  | trace => "trace"
  | debug => "debug"
  | info => "info"
  | warn => "warn"
  | error => "error"

/-- Every name that a level may be given by. -/
def names : List (String × LogLevel) :=
  [("trace", trace), ("debug", debug), ("info", info), ("warn", warn), ("warning", warn),
   ("error", error)]

/-- The level of that name, in any ASCII case. -/
def ofName? (s : Text) : Except SettingError LogLevel :=
  match names.find? (fun n => Text.sameIgnoringCase s n.1) with
  | some n => .ok n.2
  | none => .error (.unknownLogLevel s)

end LogLevel

/-- The variables of the environment that are looked at. -/
structure Environment where
  logLevel : Option Text := none
  keywords : Option Text := none
  baseLocale : Option Text := none
deriving DecidableEq, Repr

namespace Environment

/-- The names of the variables. -/
def variableNames : List String := ["FURROW_LOG_LEVEL", "FURROW_KEYWORDS", "FURROW_BASE_LOCALE"]

/-- The environment in which variables have the given values. -/
def ofLookup (value : String → Option Text) : Environment where
  logLevel := value "FURROW_LOG_LEVEL"
  keywords := value "FURROW_KEYWORDS"
  baseLocale := value "FURROW_BASE_LOCALE"

end Environment

/-- The settings that are given beside the environment. -/
structure Overrides where
  logLevel : Option LogLevel := none
  keywords : Option Text := none
  baseLocale : Option Text := none
deriving DecidableEq, Repr

/-- The settings of a run. -/
structure Settings where
  logLevel : LogLevel := .warn
  keywords : Option Text := none
  baseLocale : Text := "en"
deriving DecidableEq, Repr

namespace Settings

/-- The log level that the environment asks for. -/
def logLevelOf : Option Text → Except SettingError LogLevel
  | none => .ok .warn
  | some s => LogLevel.ofName? s

/-- The keyword document that the environment asks for; a blank name is none. -/
def keywordsOf (value : Option Text) : Option Text :=
  value.filter fun path => !(Text.trim path).isEmpty

/-- The base locale that the environment asks for; it must not be blank. -/
def baseLocaleOf : Option Text → Except SettingError Text
  | none => .ok "en"
  | some s => if (Text.trim s).isEmpty then .error .emptyBaseLocale else .ok (Text.trim s)

/-- The settings that an environment asks for. -/
def ofEnvironment (env : Environment) : Except SettingError Settings := do
  let logLevel ← logLevelOf env.logLevel
  let baseLocale ← baseLocaleOf env.baseLocale
  return ⟨logLevel, keywordsOf env.keywords, baseLocale⟩

/-- Settings with some of them given anew. -/
def override (s : Settings) (o : Overrides) : Settings where
  logLevel := o.logLevel.getD s.logLevel
  keywords := o.keywords.or s.keywords
  baseLocale := o.baseLocale.getD s.baseLocale

/-- Settings with another log level. -/
def withLogLevel (s : Settings) (level : LogLevel) : Settings := { s with logLevel := level }

/-- The dialect table that settings select: the standard one with their base,
or that of their keyword document. -/
def table (s : Settings) (read : FileReader) : Except CommandError DialectTable :=
  match s.keywords with
  | none => (DialectTable.standard.rebase s.baseLocale).mapError .keywords
  | some path =>
    match read path with
    | .error cause => .error (.unreadable path cause)
    | .ok document => (DialectTable.ofDocument document s.baseLocale).mapError .keywords

end Settings

end Gherkin
