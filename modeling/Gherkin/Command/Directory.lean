import Gherkin.Command.Error

/-!
# Directories held in memory

For callers that hold their files as values, a `Directory` reads paths the way a
file system does: a path is followed name by name, every name but the last must
be that of a folder, `.` stays and `..` goes back.

The directory lies somewhere in a larger tree of which only this much is known:
every place above it is a folder, and nothing in those is known by name.  So a
path that leaves the directory leads to a folder or to nothing.
-/

namespace Gherkin

/-- What stands under a name. -/
inductive DirectoryEntry where
  | file (content : ByteArray)
  | folder

/-- Files and folders by their paths. -/
structure Directory where
  entries : List (Text × DirectoryEntry)

namespace Directory

/-- A place that a path can lead to. -/
inductive Place where
  /-- A place above the directory. -/
  | above
  /-- The place that one reaches by these names from the directory. -/
  | within (names : List Text)
deriving DecidableEq, Repr

namespace Place

/-- One step back. -/
def back : Place → Place
  | above => above
  | within [] => above
  | within (name :: names) => within (name :: names).dropLast

/-- One step on, to what has the given name; above the directory no name is known. -/
def enter? (name : Text) : Place → Option Place
  | above => none
  | within names => some (within (names ++ [name]))

/-- The place that one name of a path leads to. -/
def step? (name : Text) (p : Place) : Option Place :=
  if name = [] ∨ name = ['.'] then some p
  else if name = ['.', '.'] then some p.back
  else p.enter? name

end Place

/-- The names along a path. -/
def names (path : Text) : List Text := Text.pieces '/' path

/-- Where a path starts. -/
def start (path : Text) : Place := if path.head? = some '/' then .above else .within []

/-- What stands at a place.  A folder is there also when only something in it
was named. -/
def at? (d : Directory) : Place → Option DirectoryEntry
  | .above => some .folder
  | .within [] => some .folder
  | .within place =>
    match d.entries.find? (fun e => names e.1 == place) with
    | some e => some e.2
    | none => if d.entries.any (fun e => place.isPrefixOf (names e.1)) then some .folder else none

/-- Follow names from a place. -/
def follow (d : Directory) (place : Place) : List Text → Except ReadFailure DirectoryEntry
  | [] =>
    match d.at? place with
    | some e => .ok e
    | none => .error .notFound
  | name :: rest =>
    match d.at? place with
    | none => .error .notFound
    | some (.file _) => .error .notDirectory
    | some .folder =>
      match place.step? name with
      | none => .error .notFound
      | some next => d.follow next rest

/-- The text of the file at a path; the empty path leads nowhere. -/
def read (d : Directory) (path : Text) : Except ReadFailure Text :=
  if path.isEmpty then .error .notFound
  else
    match d.follow (start path) (names path) with
    | .error cause => .error cause
    | .ok .folder => .error .isDirectory
    | .ok (.file content) =>
      match String.fromUTF8? content with
      | some s => .ok s.toList
      | none => .error .notText

end Directory

end Gherkin
