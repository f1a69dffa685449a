import Gherkin.Dialect.Basic
import Gherkin.Catalogue

/-!
# Dialect tables

A dialect table files dialects under locale codes and marks one code as the
base, the locale of documents that do not name their own.  A document may write
its code in any ASCII case: `lookup?` prefers the exact code and otherwise takes
the least one that differs in case only.

`DialectTable` mirrors `KeywordTable`, with `single`, `insert`, `rebase` and `lookup?` for
its `new`, `with_locale`, `with_base` and `lookup`.  What differs: a table is a value, so
an operation that fails has nothing to undo.
-/

namespace Gherkin

/-- Dialects by locale code, and the code of the base locale. -/
structure DialectTable where
  dialects : Catalogue Dialect
  base : Text
deriving DecidableEq

/-- Why a table could not be made. -/
inductive TableError where
  /-- The document is no JSON, or not JSON of the right shape. -/
  | malformed
  /-- The dialect of a locale has a role without synonyms. -/
  | missingKeyword (locale : Text) (role : Role)
  /-- The base is not a code of the table. -/
  | unknownBase (code : Text)
deriving DecidableEq, Repr

namespace TableError

/-- What the error says. -/
def message : TableError → Text
  | malformed => "invalid keyword table"
  | missingKeyword locale role =>
    "locale `" ++ locale ++ "` defines no `" ++ role.key.toList ++ "` keyword"
  | unknownBase code => "base locale `" ++ code ++ "` is not defined in the keyword table"

end TableError

namespace DialectTable

/-- A table of one locale, which is its base. -/
def single (code : Text) (d : Dialect) : DialectTable := ⟨Catalogue.empty.insert code d, code⟩

/-- The codes of the table, ascending. -/
def codes (t : DialectTable) : List Text := t.dialects.codes

/-- Add a dialect, in place of what was filed under the code. -/
def insert (t : DialectTable) (code : Text) (d : Dialect) : DialectTable :=
  { t with dialects := t.dialects.insert code d }

/-- Make another code of the table its base; the code must be written exactly. -/
def rebase (t : DialectTable) (code : Text) : Except TableError DialectTable :=
  if code ∈ t.dialects then .ok { t with base := code } else .error (.unknownBase code)

/-- The dialect of a locale. -/
def lookup? (t : DialectTable) (code : Text) : Option Dialect :=
  match t.dialects.get? code with
  | some d => some d
  | none => t.dialects.first? (Text.sameIgnoringCase · code)

end DialectTable

/-- That a dialect has a synonym for every role, on behalf of a locale. -/
def Dialect.validate (d : Dialect) (locale : Text) : Except TableError Unit :=
  match d.missing? with
  | some role => .error (.missingKeyword locale role)
  | none => .ok ()

end Gherkin
