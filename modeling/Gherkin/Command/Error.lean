import Gherkin.Document.Parse

/-!
# What can go wrong in a command

The causes for which the program ends without a result, and what it says about
each.  `isConfig` tells the causes that lie in the configuration from those that
lie in the document.

`CommandError` mirrors `CliError`, and `isConfig` its `is_config`.  What differs: the words
of the system about a file are data.
-/

namespace Gherkin

/-- Why a file cannot be read as text. -/
inductive ReadFailure where
  | notFound
  | notDirectory
  | isDirectory
  | notText
  /-- Anything else, in the words of the system. -/
  | other (words : Text)
deriving DecidableEq, Repr

/-- What the failure says. -/
def ReadFailure.message : ReadFailure → Text
  | notFound => "No such file or directory (os error 2)"
  | notDirectory => "Not a directory (os error 20)"
  | isDirectory => "Is a directory (os error 21)"
  | notText => "stream did not contain valid UTF-8"
  | other words => words

/-- The text of each file, or why there is none. -/
abbrev FileReader := Text → Except ReadFailure Text

/-- Why a setting has no value. -/
inductive SettingError where
  | unknownLogLevel (given : Text)
  | emptyBaseLocale
deriving DecidableEq, Repr

/-- What the error says. -/
def SettingError.message : SettingError → Text
  | unknownLogLevel given =>
    "unknown log level '" ++ given ++ "', expected one of: trace, debug, info, warn, error"
  | emptyBaseLocale => "base locale must not be empty"

/-- Why a command has no result. -/
inductive CommandError where
  | setting (e : SettingError)
  | unreadable (path : Text) (cause : ReadFailure)
  | document (e : ParseError)
  | keywords (e : TableError)
deriving DecidableEq, Repr

namespace CommandError

/-- What the error says. -/
def message : CommandError → Text
  | setting e => "invalid configuration: " ++ e.message
  | unreadable path cause => "failed to read " ++ path ++ ": " ++ cause.message
  | document e => e.message
  | keywords e => e.message

/-- The error and the causes behind it, each in its own words. -/
def chain : CommandError → List Text
  | unreadable path cause => [message (unreadable path cause), cause.message]
  | e => [e.message]

/-- Whether the configuration is at fault. -/
def isConfig : CommandError → Bool
  | setting _ | keywords _ => true
  | unreadable _ _ | document _ => false

end CommandError

end Gherkin
