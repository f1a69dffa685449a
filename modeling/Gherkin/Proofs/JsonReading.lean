import Gherkin.Json.Reader
import Gherkin.Json.Printer
import Mathlib.Data.List.DropRight
import Mathlib.Data.List.Forall2

/-!
# Printed JSON can be read

What `pretty` prints of a value, `read` reads as that value, so that different values
are printed differently.  Numbers are left out of this: they are printed as they stand,
whether or not they stand for numbers.

> `read_pretty`: a value without numbers is read from its own text.

White space in front of a value makes no difference (`readValue_congr`), which is why
the margins do not matter.  Behind a value anything may follow (`IsWritten`): a printed
value shows by itself where it ends.  The reader takes no more steps than the text has
characters.
-/

namespace Gherkin.Json

/-! ## Strings -/

theorem hexDigit?_digitChar : ∀ n < 16, hexDigit? (Nat.digitChar n) = some n := by decide

theorem hexUnit?_digitChar {n : Nat} (h : n < 0x20) :
    hexUnit? '0' '0' (Nat.digitChar (n / 16)) (Nat.digitChar (n % 16)) = some n := by
  have hhigh := hexDigit?_digitChar (n / 16) (by omega)
  have hlow := hexDigit?_digitChar (n % 16) (by omega)
  have hzero : hexDigit? '0' = some 0 := by decide
  rw [hexUnit?, hzero, hhigh, hlow]
  show some (((0 * 16 + 0) * 16 + n / 16) * 16 + n % 16) = some n
  congr 1
  omega

/-- A character is read from what is printed for it. -/
theorem readUnits_escaped (c : Char) (s : Text) :
    readUnits (escaped c ++ s) = (readUnits s).map fun p => (c.toNat :: p.1, p.2) := by
  have hletter {e : Char} {u : Nat} (hu : e ≠ 'u') (he : escapeUnit? e = some u) :
      readUnits ('\\' :: e :: s) = (readUnits s).map fun p => (u :: p.1, p.2) := by
    rw [readUnits, he]
    · cases readUnits s <;> rfl
    · intro _ _ _ _ _ h
      exact absurd h hu
  unfold escaped
  split_ifs with h1 h2 h3 h4 h5 h6 h7 h8
  · subst h1; exact hletter (by decide) (by decide)
  · subst h2; exact hletter (by decide) (by decide)
  · subst h3; exact hletter (by decide) (by decide)
  · subst h4; exact hletter (by decide) (by decide)
  · subst h5; exact hletter (by decide) (by decide)
  · subst h6; exact hletter (by decide) (by decide)
  · subst h7; exact hletter (by decide) (by decide)
  · show readUnits ('\\' :: 'u' :: '0' :: '0' :: _ :: _ :: s) = _
    rw [readUnits, hexUnit?_digitChar h8]
    cases readUnits s <;> rfl
  · rw [List.singleton_append, readUnits, if_neg h8]
    · cases readUnits s <;> rfl
    · exact h1
    · intro _ _ _ _ _ h
      exact absurd h h2
    · intro _ _ h
      exact absurd h h2

theorem readUnits_flatMap_escaped (r : Text) :
    ∀ s : Text, readUnits (s.flatMap escaped ++ '"' :: r) = some (s.map Char.toNat, r)
  | [] => rfl
  | c :: s => by
    rw [List.flatMap_cons, List.append_assoc, readUnits_escaped, readUnits_flatMap_escaped r s]
    rfl

/-- No character is half of a surrogate pair. -/
theorem not_isHalf_toNat (c : Char) :
    isHighHalf c.toNat = false ∧ isLowHalf c.toNat = false := by
  have hvalid : c.toNat < 0xD800 ∨ 0xDFFF < c.toNat ∧ c.toNat < 0x110000 := c.valid
  simp only [isHighHalf, isLowHalf, Bool.and_eq_false_iff, decide_eq_false_iff_not]
  omega

theorem textOfUnits_map_toNat : ∀ s : Text, textOfUnits (s.map Char.toNat) = some s
  | [] => rfl
  | [c] => by
    obtain ⟨hhigh, hlow⟩ := not_isHalf_toNat c
    simp [textOfUnits, hhigh, hlow, Char.ofNat_toNat]
  | c :: d :: s => by
    obtain ⟨hhigh, hlow⟩ := not_isHalf_toNat c
    have ih := textOfUnits_map_toNat (d :: s)
    rw [List.map_cons] at ih
    simp [textOfUnits, hhigh, hlow, ih, Char.ofNat_toNat]

/-- A string is read from its own text. -/
theorem exists_readString (name : Option Text) :
    ∃ t, prettyString name = '"' :: t ∧ ∀ r, readString (t ++ r) = some (name, r) := by
  cases name with
  | none =>
    have hunit : hexUnit? 'd' '8' '0' '0' = some 0xD800 := by decide
    have hhalf : textOfUnits [0xD800] = none := by decide
    refine ⟨['\\', 'u', 'd', '8', '0', '0', '"'], by decide, fun r => ?_⟩
    show readString ('\\' :: 'u' :: 'd' :: '8' :: '0' :: '0' :: '"' :: r) = _
    rw [readString, readUnits, hunit, readUnits]
    show some (textOfUnits [0xD800], r) = _
    rw [hhalf]
  | some s =>
    refine ⟨s.flatMap escaped ++ ['"'], rfl, fun r => ?_⟩
    rw [List.append_assoc, List.singleton_append, readString, readUnits_flatMap_escaped]
    show some (textOfUnits (s.map Char.toNat), r) = _
    rw [textOfUnits_map_toNat]

/-! ## White space -/

theorem skipSpace_append {w : Text} (hw : ∀ c ∈ w, isSpace c = true) (s : Text) :
    skipSpace (w ++ s) = skipSpace s := List.dropWhile_append_of_pos hw

theorem skipSpace_cons {c : Char} (hc : isSpace c = false) (s : Text) :
    skipSpace (c :: s) = c :: s := List.dropWhile_cons_of_neg (by simp [hc])

theorem skipSpace_cons_of_space {c : Char} (hc : isSpace c = true) (s : Text) :
    skipSpace (c :: s) = skipSpace s := List.dropWhile_cons_of_pos hc

theorem skipSpace_skipSpace (s : Text) : skipSpace (skipSpace s) = skipSpace s :=
  List.dropWhile_idempotent isSpace s

theorem isSpace_of_mem_margin {depth : Nat} {c : Char} (h : c ∈ margin depth) :
    isSpace c = true := by
  rw [List.eq_of_mem_replicate h]
  decide

theorem isSpace_of_mem_newline {depth : Nat} {c : Char} (h : c ∈ '\n' :: margin depth) :
    isSpace c = true := by
  rcases List.mem_cons.1 h with rfl | h
  · decide
  · exact isSpace_of_mem_margin h

variable {s t : Text}

/-- A value is read alike behind any white space. -/
theorem readValue_congr (h : skipSpace s = skipSpace t) (steps : Nat) :
    readValue steps s = readValue steps t := by
  cases steps with
  | zero => rfl
  | succ steps => rw [readValue, readValue, h]

theorem readItems_congr (h : skipSpace s = skipSpace t) (steps : Nat) :
    readItems steps s = readItems steps t := by
  cases steps with
  | zero => rfl
  | succ steps => rw [readItems, readItems, readValue_congr h]

theorem readMembers_congr (h : skipSpace s = skipSpace t) (steps : Nat) :
    readMembers steps s = readMembers steps t := by
  cases steps with
  | zero => rfl
  | succ steps => rw [readMembers, readMembers, h]

/-! ## Values -/

/-- That `s` is a text of the value which shows by itself where it ends: the value is
read from it whatever follows, in as many steps as it has characters. -/
structure IsWritten (v : Json) (s : Text) : Prop where
  starts : ∃ c t, s = c :: t ∧ isSpace c = false ∧ c ≠ ']'
  reads : ∀ steps r, s.length ≤ steps → readValue steps (s ++ r) = some (v, r)

/-- That `s` is a text of a member of an object: its name, a colon and its value. -/
def IsWrittenMember (m : Option Text × Json) (s : Text) : Prop :=
  ∃ t, IsWritten m.2 t ∧ s = prettyString m.1 ++ [':', ' '] ++ t

/-- Parts on lines of their own, with commas between them. -/
def joined (depth : Nat) (parts : List Text) : Text :=
  Text.join [',', '\n'] (parts.map (margin depth ++ ·))

theorem joined_singleton (depth : Nat) (part : Text) :
    joined depth [part] = margin depth ++ part := rfl

theorem joined_cons (depth : Nat) (part : Text) {parts : List Text} (h : parts ≠ []) :
    joined depth (part :: parts) = margin depth ++ (part ++ ',' :: '\n' :: joined depth parts) := by
  rw [joined, List.map_cons, Text.join_cons _ _ (by simpa using h)]
  simp [joined]

theorem enclosed_eq (first last : Char) (depth : Nat) {parts : List Text} (h : parts ≠ []) :
    enclosed first last depth parts =
      first :: '\n' :: (joined (depth + 1) parts ++ ('\n' :: margin depth) ++ [last]) := by
  cases parts with
  | nil => exact absurd rfl h
  | cons part parts => simp [enclosed, joined]

/-- What follows the last part: a line feed, a margin and the bracket. -/
theorem skipSpace_close {last : Char} (h : isSpace last = false) (depth : Nat) (r : Text) :
    skipSpace (('\n' :: margin depth) ++ last :: r) = last :: r := by
  rw [skipSpace_append fun _ => isSpace_of_mem_newline, skipSpace_cons h]

/-- One item, and what follows it. -/
theorem readItems_item {v : Json} {part : Text} (hv : IsWritten v part) (depth steps : Nat)
    (r : Text) (hsteps : part.length ≤ steps) :
    readItems (steps + 1) (margin depth ++ (part ++ r)) =
      match skipSpace r with
      | ',' :: s => (readItems steps s).map fun (items, r) => (v :: items, r)
      | ']' :: r => some ([v], r)
      | _ => none := by
  rw [readItems, readValue_congr (skipSpace_append (fun _ => isSpace_of_mem_margin) _),
    hv.reads _ _ hsteps]
  rfl

/-- Items are read one after another up to the bracket. -/
theorem readItems_joined (depth inner : Nat) (r : Text) :
    ∀ {items : List Json} {parts : List Text}, List.Forall₂ IsWritten items parts → items ≠ [] →
      ∀ steps, (joined inner parts).length < steps →
        readItems steps (joined inner parts ++ (('\n' :: margin depth) ++ ']' :: r)) =
          some (items, r)
  | _, _, .nil, h, _, _ => absurd rfl h
  | [v], [part], .cons hv .nil, _, steps + 1, hsteps => by
    rw [joined_singleton, List.length_append] at hsteps
    rw [joined_singleton, List.append_assoc, readItems_item hv _ _ _ (by omega),
      skipSpace_close (by decide)]
    rfl
  | v :: w :: items, part :: next :: parts, .cons hv hrest, _, steps + 1, hsteps => by
    rw [joined_cons _ _ (List.cons_ne_nil _ _)] at hsteps
    simp only [List.length_append, List.length_cons] at hsteps
    have ih := readItems_joined depth inner r hrest (List.cons_ne_nil _ _) steps (by omega)
    have hnext : ∀ s, readItems steps ('\n' :: s) = readItems steps s := fun s =>
      readItems_congr (skipSpace_cons_of_space (by decide) s) steps
    rw [joined_cons _ _ (List.cons_ne_nil _ _), List.append_assoc, List.append_assoc,
      readItems_item hv _ _ _ (by omega), List.cons_append, skipSpace_cons (by decide)]
    show (readItems steps ('\n' :: (joined inner (next :: parts) ++ _))).map _ = _
    rw [hnext, ih]
    rfl

/-- One member, and what follows it. -/
theorem readMembers_member {m : Option Text × Json} {part : Text} (hm : IsWrittenMember m part)
    (depth steps : Nat) (r : Text) (hsteps : part.length ≤ steps) :
    readMembers (steps + 1) (margin depth ++ (part ++ r)) =
      match skipSpace r with
      | ',' :: s => (readMembers steps s).map fun (members, r) => (m :: members, r)
      | '\x7d' :: r => some ([m], r)
      | _ => none := by
  obtain ⟨t, ht, rfl⟩ := hm
  obtain ⟨q, hq, hread⟩ := exists_readString m.1
  simp only [List.length_append, List.length_cons, List.length_nil] at hsteps
  have hvalue : readValue steps (' ' :: (t ++ r)) = some (m.2, r) := by
    rw [readValue_congr (skipSpace_cons_of_space (by decide) (t ++ r)), ht.reads _ _ (by omega)]
  rw [readMembers_congr (skipSpace_append (fun _ => isSpace_of_mem_margin) _), readMembers, hq,
    List.append_assoc, List.append_assoc, List.cons_append, skipSpace_cons (by decide)]
  show (readString (q ++ (':' :: ' ' :: (t ++ r)))).bind _ = _
  rw [hread, Option.bind_some]
  dsimp only
  rw [skipSpace_cons (by decide)]
  show (readValue steps (' ' :: (t ++ r))).bind _ = _
  rw [hvalue]
  rfl

/-- Members are read one after another up to the brace. -/
theorem readMembers_joined (depth inner : Nat) (r : Text) :
    ∀ {members : List (Option Text × Json)} {parts : List Text},
      List.Forall₂ IsWrittenMember members parts → members ≠ [] →
      ∀ steps, (joined inner parts).length < steps →
        readMembers steps (joined inner parts ++ (('\n' :: margin depth) ++ '\x7d' :: r)) =
          some (members, r)
  | _, _, .nil, h, _, _ => absurd rfl h
  | [m], [part], .cons hm .nil, _, steps + 1, hsteps => by
    rw [joined_singleton, List.length_append] at hsteps
    rw [joined_singleton, List.append_assoc, readMembers_member hm _ _ _ (by omega),
      skipSpace_close (by decide)]
    rfl
  | m :: n :: members, part :: next :: parts, .cons hm hrest, _, steps + 1, hsteps => by
    rw [joined_cons _ _ (List.cons_ne_nil _ _)] at hsteps
    simp only [List.length_append, List.length_cons] at hsteps
    have ih := readMembers_joined depth inner r hrest (List.cons_ne_nil _ _) steps (by omega)
    have hnext : ∀ s, readMembers steps ('\n' :: s) = readMembers steps s := fun s =>
      readMembers_congr (skipSpace_cons_of_space (by decide) s) steps
    rw [joined_cons _ _ (List.cons_ne_nil _ _), List.append_assoc, List.append_assoc,
      readMembers_member hm _ _ _ (by omega), List.cons_append, skipSpace_cons (by decide)]
    show (readMembers steps ('\n' :: (joined inner (next :: parts) ++ _))).map _ = _
    rw [hnext, ih]
    rfl

/-- Behind its bracket an array that is not closed at once has items. -/
theorem readValue_array {c : Char} (h : skipSpace s = c :: t) (hc : c ≠ ']') (steps : Nat) :
    readValue (steps + 1) ('[' :: s) = (readItems steps s).map fun p => (array p.1, p.2) := by
  rw [← readItems_congr (skipSpace_skipSpace s), readValue, skipSpace_cons (by decide)]
  split
  next heq => exact absurd (List.cons.inj heq).1 (by decide)
  next heq =>
    obtain rfl := (List.cons.inj heq).2
    rw [h]
    split
    next heq => exact absurd (List.cons.inj heq).1 hc
    next => rfl
  next heq => exact absurd (List.cons.inj heq).1 (by decide)
  next hother _ => exact absurd rfl (hother s)

/-- Behind its brace an object that is not closed at once has members. -/
theorem readValue_object {c : Char} (h : skipSpace s = c :: t) (hc : c ≠ '\x7d') (steps : Nat) :
    readValue (steps + 1) ('\x7b' :: s) =
      (readMembers steps s).map fun p => (object p.1, p.2) := by
  rw [← readMembers_congr (skipSpace_skipSpace s), readValue, skipSpace_cons (by decide)]
  split
  next heq => exact absurd (List.cons.inj heq).1 (by decide)
  next heq => exact absurd (List.cons.inj heq).1 (by decide)
  next heq =>
    obtain rfl := (List.cons.inj heq).2
    rw [h]
    split
    next heq => exact absurd (List.cons.inj heq).1 hc
    next => rfl
  next hother => exact absurd rfl (hother s)

/-- Where the first part starts. -/
theorem exists_skipSpace_joined {c : Char} {part : Text} (hc : isSpace c = false)
    (hpart : ∃ t, part = c :: t) (depth : Nat) (parts : List Text) (r : Text) :
    ∃ t, skipSpace ('\n' :: (joined depth (part :: parts) ++ r)) = c :: t := by
  obtain ⟨q, rfl⟩ := hpart
  have hjoined : ∃ t, joined depth ((c :: q) :: parts) = margin depth ++ c :: t := by
    cases parts with
    | nil => exact ⟨q, rfl⟩
    | cons next parts => exact ⟨_, joined_cons depth (c :: q) (List.cons_ne_nil next parts)⟩
  obtain ⟨t, ht⟩ := hjoined
  refine ⟨t ++ r, ?_⟩
  rw [ht, List.append_assoc, ← List.cons_append, skipSpace_append fun _ => isSpace_of_mem_newline,
    List.cons_append, skipSpace_cons hc]

/-! ## Printing -/

/-- A value without numbers. -/
inductive IsPlain : Json → Prop
  | null : IsPlain .null
  | bool (b : Bool) : IsPlain (.bool b)
  | string (content : Option Text) : IsPlain (.string content)
  | array {items : List Json} (h : ∀ v ∈ items, IsPlain v) : IsPlain (.array items)
  | object {members : List (Option Text × Json)} (h : ∀ m ∈ members, IsPlain m.2) :
    IsPlain (.object members)

theorem prettyItems_eq_map (depth : Nat) :
    ∀ items : List Json, prettyItems depth items = items.map (pretty depth)
  | [] => rfl
  | v :: items => by rw [prettyItems, prettyItems_eq_map depth items, List.map_cons]

/-- A member of an object as it is printed. -/
def prettyMember (depth : Nat) (m : Option Text × Json) : Text :=
  prettyString m.1 ++ [':', ' '] ++ pretty depth m.2

theorem prettyMembers_eq_map (depth : Nat) :
    ∀ members : List (Option Text × Json),
      prettyMembers depth members = members.map (prettyMember depth)
  | [] => rfl
  | (name, v) :: members => by
    rw [prettyMembers, prettyMembers_eq_map depth members, List.map_cons]
    rfl

/-- A value that the reader takes to be none of the others. -/
theorem isWritten_scalar {v : Json} {c : Char} (hspace : isSpace c = false)
    (hc : c ∉ ['"', '[', ']', '\x7b']) (h : ∀ r, readScalar (c :: s ++ r) = some (v, r)) :
    IsWritten v (c :: s) := by
  simp only [List.mem_cons, List.not_mem_nil, or_false, not_or] at hc
  refine ⟨⟨c, s, rfl, hspace, hc.2.2.1⟩, fun steps r hsteps => ?_⟩
  cases steps with
  | zero => cases hsteps
  | succ steps =>
    rw [readValue, List.cons_append, skipSpace_cons hspace]
    split
    next heq => exact absurd (List.cons.inj heq).1 hc.1
    next heq => exact absurd (List.cons.inj heq).1 hc.2.1
    next heq => exact absurd (List.cons.inj heq).1 hc.2.2.2
    next => exact h r

theorem isWritten_string (content : Option Text) :
    IsWritten (.string content) (prettyString content) := by
  obtain ⟨q, hq, hread⟩ := exists_readString content
  rw [hq]
  refine ⟨⟨'"', q, rfl, by decide, by decide⟩, fun steps r hsteps => ?_⟩
  cases steps with
  | zero => cases hsteps
  | succ steps =>
    rw [readValue, List.cons_append, skipSpace_cons (by decide)]
    show (readString (q ++ r)).map _ = _
    rw [hread]
    rfl

/-- Brackets or braces around parts. -/
theorem isWritten_enclosed {v : Json} {first last : Char} (depth : Nat) {parts : List Text}
    (hne : parts ≠ []) (hspace : isSpace first = false) (hfirst : first ≠ ']')
    (h : ∀ steps r, (joined (depth + 1) parts).length < steps →
      readValue (steps + 1) (first :: '\n' ::
        (joined (depth + 1) parts ++ (('\n' :: margin depth) ++ last :: r))) = some (v, r)) :
    IsWritten v (enclosed first last depth parts) := by
  rw [enclosed_eq _ _ _ hne]
  refine ⟨⟨first, _, rfl, hspace, hfirst⟩, fun steps r hsteps => ?_⟩
  simp only [List.length_cons, List.length_append] at hsteps
  cases steps with
  | zero => cases hsteps
  | succ steps =>
    rw [← h steps r (by omega)]
    simp

/-- Items in brackets, each of them written. -/
theorem isWritten_array {items : List Json} {parts : List Text}
    (h : List.Forall₂ IsWritten items parts) (depth : Nat) :
    IsWritten (.array items) (enclosed '[' ']' depth parts) := by
  cases h with
  | nil =>
    refine ⟨⟨'[', [']'], rfl, by decide, by decide⟩, fun steps r hsteps => ?_⟩
    cases steps with
    | zero => cases hsteps
    | succ steps => rfl
  | @cons v part items parts hv hrest =>
    obtain ⟨c, t, hstart, hspace, hc⟩ := hv.starts
    refine isWritten_enclosed depth (List.cons_ne_nil _ _) (by decide) (by decide)
      fun steps r hsteps => ?_
    obtain ⟨u, hu⟩ := exists_skipSpace_joined hspace ⟨t, hstart⟩ (depth + 1) parts
      (('\n' :: margin depth) ++ ']' :: r)
    rw [readValue_array hu hc, readItems_congr (skipSpace_cons_of_space (by decide) _),
      readItems_joined depth (depth + 1) r (.cons hv hrest) (List.cons_ne_nil _ _) steps hsteps]
    rfl

/-- A member starts with the quote of its name. -/
theorem IsWrittenMember.starts {m : Option Text × Json} {part : Text}
    (h : IsWrittenMember m part) : ∃ t, part = '"' :: t := by
  obtain ⟨t, -, rfl⟩ := h
  obtain ⟨q, hq, -⟩ := exists_readString m.1
  exact ⟨q ++ [':', ' '] ++ t, by rw [hq]; rfl⟩

/-- Members in braces, each of them written. -/
theorem isWritten_object {members : List (Option Text × Json)} {parts : List Text}
    (h : List.Forall₂ IsWrittenMember members parts) (depth : Nat) :
    IsWritten (.object members) (enclosed '\x7b' '\x7d' depth parts) := by
  cases h with
  | nil =>
    refine ⟨⟨'\x7b', ['\x7d'], rfl, by decide, by decide⟩, fun steps r hsteps => ?_⟩
    cases steps with
    | zero => cases hsteps
    | succ steps => rfl
  | @cons m part members parts hm hrest =>
    refine isWritten_enclosed depth (List.cons_ne_nil _ _) (by decide) (by decide)
      fun steps r hsteps => ?_
    obtain ⟨u, hu⟩ := exists_skipSpace_joined (by decide) hm.starts (depth + 1) parts
      (('\n' :: margin depth) ++ '\x7d' :: r)
    rw [readValue_object hu (by decide), readMembers_congr (skipSpace_cons_of_space (by decide) _),
      readMembers_joined depth (depth + 1) r (.cons hm hrest) (List.cons_ne_nil _ _) steps hsteps]
    rfl

theorem isWritten_null : IsWritten .null "null" :=
  isWritten_scalar (by decide) (by decide) fun r => by
    rw [readScalar]
    rfl

theorem isWritten_bool (b : Bool) (depth : Nat) : IsWritten (.bool b) (pretty depth (.bool b)) := by
  cases b with
  | true | false =>
    rw [pretty]
    refine isWritten_scalar (by decide) (by decide) fun r => ?_
    rw [readScalar]
    rfl

theorem isWritten_pretty {v : Json} (hv : IsPlain v) : ∀ depth, IsWritten v (pretty depth v) := by
  induction hv with
  | null =>
    intro depth
    rw [pretty]
    exact isWritten_null
  | bool b => exact isWritten_bool b
  | string content =>
    intro depth
    rw [pretty]
    exact isWritten_string content
  | array _ ih =>
    intro depth
    rw [pretty, prettyItems_eq_map]
    refine isWritten_array ?_ depth
    rw [List.forall₂_map_right_iff, List.forall₂_same]
    exact fun v hv => ih v hv (depth + 1)
  | object _ ih =>
    intro depth
    rw [pretty, prettyMembers_eq_map]
    refine isWritten_object ?_ depth
    rw [List.forall₂_map_right_iff, List.forall₂_same]
    exact fun m hm => ⟨_, ih m hm (depth + 1), rfl⟩

/-- **What is printed can be read**, whatever white space stands behind it. -/
theorem read_pretty {v : Json} (hv : IsPlain v) (depth : Nat) {w : Text}
    (hw : ∀ c ∈ w, isSpace c = true) : read (pretty depth v ++ w) = some v := by
  have hsteps : (pretty depth v).length ≤ 2 * (pretty depth v ++ w).length + 2 := by
    rw [List.length_append]
    omega
  have hrest : skipSpace w = [] := List.dropWhile_eq_nil_iff.2 hw
  rw [read, (isWritten_pretty hv depth).reads _ _ hsteps]
  dsimp only
  rw [hrest]
  rfl

end Gherkin.Json
