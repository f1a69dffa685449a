/-!
# Text

Everything this library reads or writes is a `Text`: the list of its
characters.  This module holds the operations that know nothing about white
space or character classes: taking a given piece off either end, cutting at a
separator, joining, and comparison that ignores the case of ASCII letters.

`after?_eq_some` and `before?_eq_some` say that stripping is exactly the
inverse of appending, and `join_pieces` that cutting loses nothing.
-/

namespace Gherkin

/-- A text is the list of its characters, so every definition over texts is by
recursion on that list. -/
abbrev Text := List Char

namespace Text

instance : Coe String Text := ⟨String.toList⟩

/-- The part of `s` after a leading `p`; `none` when `s` does not start so. -/
def after? : (p s : Text) → Option Text
  | [], s => some s
  | _ :: _, [] => none
  | c :: p, d :: s => if c = d then after? p s else none

/-- The part of `s` before a trailing `p`; `none` when `s` does not end so. -/
def before? (p s : Text) : Option Text :=
  (after? p.reverse s.reverse).map List.reverse

theorem after?_eq_some : ∀ {p s r : Text}, after? p s = some r ↔ s = p ++ r
  | [], s, r => by simp [after?]
  | c :: p, [], r => by simp [after?]
  | c :: p, d :: s, r => by
    by_cases h : c = d
    · subst h; simp [after?, after?_eq_some (p := p) (s := s)]
    · simp [after?, h, Ne.symm h]

theorem before?_eq_some {p s r : Text} : before? p s = some r ↔ s = r ++ p := by
  simp only [before?, Option.map_eq_some_iff, after?_eq_some]
  constructor
  · rintro ⟨t, ht, rfl⟩
    simpa using congrArg List.reverse ht
  · rintro rfl
    exact ⟨r.reverse, by simp, by simp⟩

/-- `s` without one leading `p`, or `s` itself. -/
def withoutLeading (p s : Text) : Text := (after? p s).getD s

/-- `s` without one trailing `p`, or `s` itself. -/
def withoutTrailing (p s : Text) : Text := (before? p s).getD s

/-- Cut at every `sep`.  There is always one piece more than separators. -/
def pieces (sep : Char) : Text → List Text
  | [] => [[]]
  | c :: s =>
    if c = sep then [] :: pieces sep s
    else
      match pieces sep s with
      | [] => [[c]]
      | w :: ws => (c :: w) :: ws

/-- Put `sep` between the members of a list of texts. -/
def join (sep : Text) : List Text → Text
  | [] => []
  | [w] => w
  | w :: ws => w ++ sep ++ join sep ws

theorem pieces_ne_nil (sep : Char) : ∀ s : Text, pieces sep s ≠ []
  | [] => by simp [pieces]
  | c :: s => by
    rw [pieces]
    split
    · simp
    · split <;> simp

theorem join_cons (sep w : Text) {ws : List Text} (h : ws ≠ []) :
    join sep (w :: ws) = w ++ sep ++ join sep ws := by
  cases ws with
  | nil => exact absurd rfl h
  | cons v vs => rfl

/-- Joining the pieces with the separator gives the text back. -/
theorem join_pieces (sep : Char) : ∀ s : Text, join [sep] (pieces sep s) = s
  | [] => rfl
  | c :: s => by
    have ih := join_pieces sep s
    rw [pieces]
    split
    · rename_i h
      rw [join_cons _ _ (pieces_ne_nil sep s), ih, h]; rfl
    · cases hp : pieces sep s with
      | nil => exact absurd hp (pieces_ne_nil sep s)
      | cons w ws =>
        rw [hp] at ih
        cases ws with
        | nil => simpa [join] using ih
        | cons v vs => simpa [join] using ih

/-- The same text up to the case of ASCII letters. -/
def sameIgnoringCase (a b : Text) : Bool := a.map Char.toLower == b.map Char.toLower

end Text

end Gherkin
