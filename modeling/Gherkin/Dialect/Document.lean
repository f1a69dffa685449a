import Gherkin.Dialect.Table
import Gherkin.Json.Reader
import Gherkin.Text.Blank

/-!
# Keyword documents

A dialect table can be written as a JSON object of locale codes.  The dialect of
a code is an object with a member for each role, or an array of the ten lists in
the order of the roles; a list of one synonym may be a bare string.  Members
with other names are skipped, whatever they hold.

Three things can be wrong, and they are looked for in this order: the document
has not this shape (`malformed`); some dialect has a role without synonyms,
where the least locale and then the first role is named; the base is not one of
the codes.

`ofDocument` mirrors `from_json`, and `synonymsOfJson?` the reading of a `OneOrMany` in
`synonyms`.  What differs: why a document is malformed is not said, since these words
belong to the JSON library.
-/

namespace Gherkin

/-- The texts in a list of JSON strings. -/
def Json.texts? (items : List Json) : Option (List Text) :=
  items.mapM fun item =>
    match item with
    | .string content => content
    | _ => none

namespace Dialect

/-- Synonyms as they count: without white space around them, blank ones left out. -/
def cleaned (l : List Text) : List Text := (l.map Text.trim).filter (fun w => !w.isEmpty)

/-- The synonyms of one role, written as a string or a list of strings. -/
def synonymsOfJson? : Json → Option (List Text)
  | .string (some s) => some (cleaned [s])
  | .array items => (Json.texts? items).map cleaned
  | _ => none

/-- The dialect in which role `r` has the synonyms `f r`, if all of them are there. -/
def collect? (f : Role → Option (List Text)) : Option Dialect :=
  if Role.all.all (fun r => (f r).isSome) then some (ofWords fun r => (f r).getD []) else none

/-- The member that gives a role: there must be exactly one. -/
def memberFor? (members : List (Text × Json)) (r : Role) : Option Json :=
  match members.filter (fun m => Role.ofKey? m.1 == some r) with
  | [m] => some m.2
  | _ => none

/-- The name of a member and its value, if the name denotes a text. -/
def namedMember? (m : Option Text × Json) : Option (Text × Json) := m.1.map (·, m.2)

/-- The dialect that a JSON value describes. -/
def ofJson? : Json → Option Dialect
  | .object members => do
    let named ← members.mapM namedMember?
    collect? fun r => (memberFor? named r).bind synonymsOfJson?
  | .array items =>
    if items.length = Role.all.length then
      collect? fun r => (items[Role.all.idxOf r]?).bind synonymsOfJson?
    else none
  | _ => none

end Dialect

/-- The dialects that a JSON value describes, by code; the last one written for a
code stays. -/
def Json.dialects? : Json → Option (Catalogue Dialect)
  | .object members =>
    (members.mapM fun m => do
      let (code, value) ← Dialect.namedMember? m
      let d ← Dialect.ofJson? value
      some (code, d)).map Catalogue.ofList
  | _ => none

namespace DialectTable

/-- The first locale whose dialect lacks a role, with that role. -/
def firstGap? (c : Catalogue Dialect) : Option (Text × Role) :=
  c.entries.findSome? fun e => e.2.missing?.map (e.1, ·)

/-- The table of a keyword document with the given base. -/
def ofDocument (document base : Text) : Except TableError DialectTable :=
  match (Json.read document).bind Json.dialects? with
  | none => .error .malformed
  | some dialects =>
    match firstGap? dialects with
    | some (locale, role) => .error (.missingKeyword locale role)
    | none =>
      if base ∈ dialects then .ok ⟨dialects, base⟩ else .error (.unknownBase base)

end DialectTable

end Gherkin
