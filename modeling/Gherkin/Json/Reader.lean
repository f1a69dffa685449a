import Gherkin.Json.Value

/-!
# Reading JSON

The reader accepts JSON in the strict sense: no byte order mark, no comments,
no trailing comma, no leading zero, no raw control character in a string, and
nothing but white space after the value.  `read` gives the reader more steps
than a text of that length can need, so running out of steps never shows.
-/

namespace Gherkin.Json

/-- The four white space characters of JSON. -/
def isSpace (c : Char) : Bool := c == ' ' || c == '\n' || c == '\t' || c == '\r'

/-- Move to the next character that is not white space. -/
def skipSpace (s : Text) : Text := s.dropWhile isSpace

/-- The value of a hexadecimal digit of either case. -/
def hexDigit? (c : Char) : Option Nat :=
  if '0' ≤ c ∧ c ≤ '9' then some (c.toNat - '0'.toNat)
  else if 'a' ≤ c ∧ c ≤ 'f' then some (c.toNat - 'a'.toNat + 10)
  else if 'A' ≤ c ∧ c ≤ 'F' then some (c.toNat - 'A'.toNat + 10)
  else none

/-- The number that four hexadecimal digits stand for. -/
def hexUnit? (a b c d : Char) : Option Nat := do
  let a ← hexDigit? a
  let b ← hexDigit? b
  let c ← hexDigit? c
  let d ← hexDigit? d
  some (((a * 16 + b) * 16 + c) * 16 + d)

/-- The code point that a letter stands for after a backslash. -/
def escapeUnit? (c : Char) : Option Nat :=
  if c = '"' ∨ c = '\\' ∨ c = '/' then some c.toNat
  else if c = 'b' then some 0x08
  else if c = 'f' then some 0x0C
  else if c = 'n' then some 0x0A
  else if c = 'r' then some 0x0D
  else if c = 't' then some 0x09
  else none

/-- The code points and surrogate halves of a string, up to its closing quote,
and what follows the quote. -/
def readUnits : Text → Option (List Nat × Text)
  | [] => none
  | '"' :: s => some ([], s)
  | '\\' :: 'u' :: a :: b :: c :: d :: s => do
    let u ← hexUnit? a b c d
    let (us, r) ← readUnits s
    some (u :: us, r)
  | '\\' :: e :: s => do
    let u ← escapeUnit? e
    let (us, r) ← readUnits s
    some (u :: us, r)
  | c :: s =>
    if c.toNat < 0x20 then none
    else do
      let (us, r) ← readUnits s
      some (c.toNat :: us, r)

/-- The first half of a surrogate pair. -/
def isHighHalf (u : Nat) : Bool := 0xD800 ≤ u && u ≤ 0xDBFF

/-- The second half of a surrogate pair. -/
def isLowHalf (u : Nat) : Bool := 0xDC00 ≤ u && u ≤ 0xDFFF

/-- The text that a sequence of units denotes: two matching halves make one
character, and a half on its own makes none. -/
def textOfUnits : List Nat → Option Text
  | [] => some []
  | [u] => if isHighHalf u || isLowHalf u then none else some [Char.ofNat u]
  | u :: v :: us =>
    if isHighHalf u then
      if isLowHalf v then
        (textOfUnits us).map (Char.ofNat (0x10000 + (u - 0xD800) * 0x400 + (v - 0xDC00)) :: ·)
      else none
    else if isLowHalf u then none
    else (textOfUnits (v :: us)).map (Char.ofNat u :: ·)

/-- The content of a string whose opening quote has been read. -/
def readString (s : Text) : Option (Option Text × Text) :=
  (readUnits s).map fun (us, r) => (textOfUnits us, r)

/-- At least one digit, and what follows the digits. -/
def readDigits (s : Text) : Option (Text × Text) :=
  match s.takeWhile Char.isDigit with
  | [] => none
  | ds => some (ds, s.dropWhile Char.isDigit)

/-- The integer part of a number: a zero, or digits that start with another. -/
def readInteger : Text → Option (Text × Text)
  | '0' :: s => some (['0'], s)
  | s => readDigits s

/-- The fraction of a number, which may be missing. -/
def readFraction : Text → Option (Text × Text)
  | '.' :: s => (readDigits s).map fun (ds, r) => ('.' :: ds, r)
  | s => some ([], s)

/-- The exponent of a number, which may be missing. -/
def readExponent : Text → Option (Text × Text)
  | e :: s =>
    if e = 'e' ∨ e = 'E' then
      match s with
      | sign :: t =>
        if sign = '+' ∨ sign = '-' then (readDigits t).map fun (ds, r) => (e :: sign :: ds, r)
        else (readDigits s).map fun (ds, r) => (e :: ds, r)
      | [] => none
    else some ([], e :: s)
  | [] => some ([], [])

/-- A number without its sign. -/
def readMagnitude (s : Text) : Option (Text × Text) := do
  let (whole, s) ← readInteger s
  let (fraction, s) ← readFraction s
  let (exponent, s) ← readExponent s
  some (whole ++ fraction ++ exponent, s)

/-- A number as it is written. -/
def readNumber : Text → Option (Text × Text)
  | '-' :: s => (readMagnitude s).map fun (m, r) => ('-' :: m, r)
  | s => readMagnitude s

/-- A value that is neither string, array nor object. -/
def readScalar (s : Text) : Option (Json × Text) :=
  match Text.after? "null" s with
  | some r => some (null, r)
  | none =>
    match Text.after? "true" s with
    | some r => some (bool true, r)
    | none =>
      match Text.after? "false" s with
      | some r => some (bool false, r)
      | none => (readNumber s).map fun (m, r) => (number m, r)

mutual

/-- A value and what follows it. -/
def readValue : Nat → Text → Option (Json × Text)
  | 0, _ => none
  | steps + 1, s =>
    match skipSpace s with
    | '"' :: s => (readString s).map fun (t, r) => (string t, r)
    | '[' :: s =>
      match skipSpace s with
      | ']' :: r => some (array [], r)
      | s => (readItems steps s).map fun (items, r) => (array items, r)
    | '\x7b' :: s =>
      match skipSpace s with
      | '\x7d' :: r => some (object [], r)
      | s => (readMembers steps s).map fun (members, r) => (object members, r)
    | s => readScalar s

/-- One or more items up to the closing bracket. -/
def readItems : Nat → Text → Option (List Json × Text)
  | 0, _ => none
  | steps + 1, s => do
    let (item, s) ← readValue steps s
    match skipSpace s with
    | ',' :: s => (readItems steps s).map fun (items, r) => (item :: items, r)
    | ']' :: r => some ([item], r)
    | _ => none

/-- One or more members up to the closing brace. -/
def readMembers : Nat → Text → Option (List (Option Text × Json) × Text)
  | 0, _ => none
  | steps + 1, s =>
    match skipSpace s with
    | '"' :: s => do
      let (name, s) ← readString s
      match skipSpace s with
      | ':' :: s => do
        let (value, s) ← readValue steps s
        match skipSpace s with
        | ',' :: s => (readMembers steps s).map fun (members, r) => ((name, value) :: members, r)
        | '\x7d' :: r => some ([(name, value)], r)
        | _ => none
      | _ => none
    | _ => none

end

/-- The value that a whole text stands for. -/
def read (s : Text) : Option Json :=
  match readValue (2 * s.length + 2) s with
  | some (value, r) => if (skipSpace r).isEmpty then some value else none
  | none => none

end Gherkin.Json
