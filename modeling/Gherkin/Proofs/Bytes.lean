import Gherkin.Text.Basic
import Mathlib.Data.Char
import Mathlib.Data.List.Basic
import Mathlib.Tactic.SplitIfs

/-!
# Texts as bytes

A text is kept as the bytes of its characters in UTF-8.  Two things that are said
about the bytes can as well be said about the characters:

> `cutAtByte?_eq_some`: a text can be cut at a byte exactly where a character ends, and so
> at the byte where the first character of some kind stands (`cutAtByte?_findByte?`);
>
> `utf8_lt_utf8`: texts stand in the order of their bytes exactly when they stand in
> the order of their characters.

For the order it is enough that of two characters the lesser one has the lesser
bytes, whatever follows them (`encode_lt_encode`).  Their first bytes tell it if one
is longer, and else they hold the digits of the two numbers to the base 64.
-/

namespace Gherkin.Text

/-- The bytes of a text in UTF-8. -/
def utf8 (s : Text) : List UInt8 := s.flatMap String.utf8EncodeChar

theorem utf8_cons (c : Char) (s : Text) : utf8 (c :: s) = String.utf8EncodeChar c ++ utf8 s :=
  List.flatMap_cons

/-! ## Cutting at a byte -/

/-- What stands before and behind the first `n` bytes of a text, if they are whole
characters and the text has as many. -/
def cutAtByte? : Nat → Text → Option (Text × Text)
  | 0, s => some ([], s)
  | _ + 1, [] => none
  | n + 1, c :: s =>
    if c.utf8Size ≤ n + 1 then
      (cutAtByte? (n + 1 - c.utf8Size) s).map fun (a, b) => (c :: a, b)
    else none

theorem length_utf8_cons (c : Char) (s : Text) :
    (utf8 (c :: s)).length = c.utf8Size + (utf8 s).length := by
  rw [utf8_cons, List.length_append, String.length_utf8EncodeChar]

theorem cutAtByte?_eq_some : ∀ {s : Text} {n : Nat} {a b : Text},
    cutAtByte? n s = some (a, b) ↔ s = a ++ b ∧ (utf8 a).length = n
  | s, 0, a, b => by
    rw [cutAtByte?, Option.some.injEq, Prod.mk.injEq]
    constructor
    · rintro ⟨rfl, rfl⟩
      exact ⟨rfl, rfl⟩
    · rintro ⟨rfl, hlen⟩
      cases a with
      | nil => exact ⟨rfl, rfl⟩
      | cons c a =>
        rw [length_utf8_cons] at hlen
        have hc := c.utf8Size_pos
        omega
  | [], n + 1, a, b => by
    constructor
    · intro h
      cases h
    · rintro ⟨hnil, hlen⟩
      rw [(List.append_eq_nil_iff.1 hnil.symm).1] at hlen
      cases hlen
  | c :: s, n + 1, a, b => by
    rw [cutAtByte?]
    by_cases hc : c.utf8Size ≤ n + 1
    · rw [if_pos hc, Option.map_eq_some_iff]
      constructor
      · rintro ⟨⟨a, b⟩, hcut, rfl, rfl⟩
        obtain ⟨rfl, hlen⟩ := cutAtByte?_eq_some.1 hcut
        rw [length_utf8_cons, hlen]
        exact ⟨rfl, by omega⟩
      · rintro ⟨hs, hlen⟩
        cases a with
        | nil => cases hlen
        | cons d a =>
          obtain ⟨rfl, rfl⟩ := List.cons.inj hs
          rw [length_utf8_cons] at hlen
          exact ⟨(a, b), cutAtByte?_eq_some.2 ⟨rfl, by omega⟩, rfl⟩
    · rw [if_neg hc]
      constructor
      · intro h
        cases h
      · rintro ⟨hs, hlen⟩
        -- the first character alone has more bytes
        cases a with
        | nil => cases hlen
        | cons d a =>
          obtain ⟨rfl, -⟩ := List.cons.inj hs
          rw [length_utf8_cons] at hlen
          omega

/-- The byte at which the first character stands that satisfies `p`. -/
def findByte? (p : Char → Bool) : Text → Option Nat
  | [] => none
  | c :: s => if p c then some 0 else (findByte? p s).map (c.utf8Size + ·)

/-- The bytes in front of that character, or all of them if there is none. -/
theorem length_utf8_takeWhile (p : Char → Bool) :
    ∀ s : Text, (utf8 (s.takeWhile (!p ·))).length = (findByte? p s).getD (utf8 s).length
  | [] => rfl
  | c :: s => by
    have ih := length_utf8_takeWhile p s
    rw [findByte?]
    by_cases hc : p c = true
    · rw [if_pos hc, List.takeWhile_cons_of_neg (by simp [hc])]
      rfl
    · rw [if_neg hc, List.takeWhile_cons_of_pos (by simpa using hc), length_utf8_cons,
        length_utf8_cons, ih]
      cases findByte? p s <;> rfl

/-- A text can be cut there. -/
theorem cutAtByte?_findByte? (p : Char → Bool) (s : Text) :
    cutAtByte? ((findByte? p s).getD (utf8 s).length) s =
      some (s.takeWhile (!p ·), s.dropWhile (!p ·)) :=
  cutAtByte?_eq_some.2 ⟨List.takeWhile_append_dropWhile.symm, length_utf8_takeWhile p s⟩

/-! ## The order of the bytes -/

theorem toNat_lt_of_valid (c : Char) : c.val.toNat < 0x110000 := by
  rcases c.valid with h | ⟨-, h⟩
  · exact Nat.lt_trans h (by decide)
  · exact h

/-- The bytes of a lesser character are lesser, whatever stands behind them. -/
theorem encode_lt_encode {c d : Char} (h : c < d) (u v : List UInt8) :
    String.utf8EncodeChar c ++ u < String.utf8EncodeChar d ++ v := by
  have hlt : c.val.toNat < d.val.toNat := UInt32.lt_iff_toNat_lt.1 h
  have hd : d.val.toNat < 0x110000 := toNat_lt_of_valid d
  -- for each pair of lengths this compares the digits of two numbers
  simp only [String.utf8EncodeChar]
  split_ifs <;>
    simp only [List.cons_append, List.nil_append, List.cons_lt_cons_iff, UInt8.lt_iff_toNat_lt,
      ← UInt8.toNat_inj, UInt8.toNat_ofNat'] <;>
    simp (disch := omega) only [Nat.mod_eq_of_lt] <;>
    omega

theorem append_lt_append_left_iff {l u v : List UInt8} : l ++ u < l ++ v ↔ u < v := by
  induction l with
  | nil => rfl
  | cons x l ih => simp [ih]

theorem nil_lt_utf8_cons (c : Char) (s : Text) : [] < utf8 (c :: s) := by
  cases h : utf8 (c :: s) with
  | nil =>
    have hlen := length_utf8_cons c s
    have hc := c.utf8Size_pos
    rw [h, List.length_nil] at hlen
    omega
  | cons x l => exact List.nil_lt_cons x l

/-- The order of the bytes is the order of the characters. -/
theorem utf8_lt_utf8 : ∀ {s t : Text}, utf8 s < utf8 t ↔ s < t
  | [], [] => by simp [utf8]
  | [], d :: t => iff_of_true (nil_lt_utf8_cons d t) (List.nil_lt_cons d t)
  | c :: s, [] => iff_of_false (List.not_lt_nil _) (List.not_lt_nil _)
  | c :: s, d :: t => by
    rw [utf8_cons, utf8_cons, List.cons_lt_cons_iff]
    rcases lt_trichotomy c d with hlt | rfl | hgt
    · exact iff_of_true (encode_lt_encode hlt _ _) (Or.inl hlt)
    · rw [append_lt_append_left_iff, utf8_lt_utf8]
      simp
    · refine iff_of_false (List.lt_asymm (encode_lt_encode hgt _ _)) ?_
      rintro (hlt | ⟨rfl, -⟩)
      · exact lt_asymm hgt hlt
      · exact lt_irrefl _ hgt

end Gherkin.Text
