import Gherkin.Line.Tags
import Gherkin.Proofs.Bytes
import Mathlib.Data.List.Forall2
import Mathlib.Data.List.TakeWhile

/-!
# Which words are tags

A text is cut at its at signs, and each piece behind one of them starts with a word or
does not.  Nothing but the place of an at sign and the characters right behind it matters:

> `tagWords_grammar`: there is one tag for each at sign with a word character behind it,
> in order, and it is all of the word characters that stand there.

So a text that is written as tags with something between them gives these tags, whatever
that is, as long as it holds no at sign and does not go on with the word.

Both come from what one more character in front does (`tagWords_cons`).  The end of a
word can as well be looked for as a byte (`tagWordsByBytes_eq`): where a word ends a
character ends.
-/

namespace Gherkin

namespace Text

/-- The at sign belongs to no word. -/
theorem isWordChar_at : isWordChar '@' = false := by decide

/-- The piece in front of the first separator. -/
theorem pieces_eq_takeWhile (sep : Char) :
    ∀ s : Text, pieces sep s = s.takeWhile (· != sep) :: (pieces sep s).drop 1
  | [] => rfl
  | c :: s => by
    have ih := pieces_eq_takeWhile sep s
    rw [pieces]
    by_cases hc : c = sep
    · simp [hc]
    · rw [if_neg hc, ih, List.takeWhile_cons_of_pos (by simpa using hc)]
      rfl

/-- A character that is no separator changes only the first piece. -/
theorem drop_pieces_cons {sep c : Char} (hc : c ≠ sep) (s : Text) :
    (pieces sep (c :: s)).drop 1 = (pieces sep s).drop 1 := by
  rw [pieces, if_neg hc, pieces_eq_takeWhile]
  rfl

end Text

namespace Line

variable {c : Char} {s w : Text} {words : List Text} {i : Nat}

/-! ## One more character -/

/-- The word at the start of a text; there may be none. -/
def startingWord (s : Text) : List Text :=
  if s.takeWhile Text.isWordChar = [] then [] else [s.takeWhile Text.isWordChar]

/-- **One more character.**  An at sign adds the word behind it, and nothing else adds
anything. -/
theorem tagWords_cons (c : Char) (s : Text) :
    tagWords (c :: s) = (if c = '@' then startingWord s else []) ++ tagWords s := by
  by_cases hc : c = '@'
  · -- a word ends where the next at sign stands, so it is the same in the piece
    have hword : (s.takeWhile (· != '@')).takeWhile Text.isWordChar =
        s.takeWhile Text.isWordChar := by
      rw [List.takeWhile_takeWhile]
      congr 1
      funext x
      by_cases hx : x = '@'
      · simp [hx, Text.isWordChar_at]
      · simp [hx]
    rw [if_pos hc, tagWords, hc, Text.pieces, if_pos rfl, List.drop_succ_cons, List.drop_zero,
      Text.pieces_eq_takeWhile, List.map_cons, List.filter_cons, hword, startingWord, tagWords]
    cases s.takeWhile Text.isWordChar <;> rfl
  · rw [if_neg hc, tagWords, Text.drop_pieces_cons hc, List.nil_append, tagWords]

/-! ## Where tags start -/

/-- Whether a tag starts at a position: an at sign stands there, and a word character
behind it. -/
def startsTag (s : Text) (i : Nat) : Bool :=
  s[i]? == some '@' && (s[i + 1]?).any Text.isWordChar

/-- The positions at which tags start, in order. -/
def tagStarts (s : Text) : List Nat := (List.range s.length).filter (startsTag s)

/-- That an at sign stands at a position, and that `w` is all of the word characters
right behind it. -/
def IsTagAt (s : Text) (i : Nat) (w : Text) : Prop :=
  ∃ before behind, s = before ++ '@' :: (w ++ behind) ∧ before.length = i ∧ w ≠ [] ∧
    (∀ c ∈ w, Text.isWordChar c = true) ∧
      ∀ c, behind.head? = some c → Text.isWordChar c = false

theorem IsTagAt.cons (h : IsTagAt s i w) (c : Char) : IsTagAt (c :: s) (i + 1) w := by
  obtain ⟨before, behind, rfl, rfl, hw⟩ := h
  exact ⟨c :: before, behind, rfl, rfl, hw⟩

theorem tagStarts_cons (c : Char) (s : Text) :
    tagStarts (c :: s) =
      (if startsTag (c :: s) 0 then [0] else []) ++ (tagStarts s).map (· + 1) := by
  have hshift : startsTag (c :: s) ∘ Nat.succ = startsTag s := by
    funext i
    simp [startsTag]
  rw [tagStarts, List.length_cons, List.range_succ_eq_map, List.filter_cons, List.filter_map,
    hshift, tagStarts]
  split <;> rfl

/-- A tag starts at an at sign in front of a word. -/
theorem startsTag_zero :
    startsTag (c :: s) 0 = true ↔ c = '@' ∧ s.takeWhile Text.isWordChar ≠ [] := by
  cases s with
  | nil => simp [startsTag]
  | cons d s => cases hd : Text.isWordChar d <;> simp [startsTag, hd]

theorem isTagAt_zero (h : s.takeWhile Text.isWordChar ≠ []) :
    IsTagAt ('@' :: s) 0 (s.takeWhile Text.isWordChar) := by
  refine ⟨[], s.dropWhile Text.isWordChar, ?_, rfl, h, fun c hc => List.mem_takeWhile_imp hc,
    fun c hc => ?_⟩
  · rw [List.takeWhile_append_dropWhile, List.nil_append]
  · have hnot := List.head?_dropWhile_not Text.isWordChar s
    rw [hc] at hnot
    simpa using hnot

/-- The tags stand where tags start. -/
theorem forall₂_isTagAt : ∀ s : Text, List.Forall₂ (IsTagAt s) (tagStarts s) (tagWords s)
  | [] => .nil
  | c :: s => by
    have hrest : List.Forall₂ (IsTagAt (c :: s)) ((tagStarts s).map (· + 1)) (tagWords s) := by
      rw [List.forall₂_map_left_iff]
      exact (forall₂_isTagAt s).imp fun _ _ h => h.cons c
    rw [tagStarts_cons, tagWords_cons]
    refine List.rel_append ?_ hrest
    by_cases hstart : startsTag (c :: s) 0 = true
    · obtain ⟨rfl, hword⟩ := startsTag_zero.1 hstart
      rw [if_pos hstart, if_pos rfl, startingWord, if_neg hword]
      exact .cons (isTagAt_zero hword) .nil
    · rw [if_neg hstart]
      split
      next hc =>
        have hnone : s.takeWhile Text.isWordChar = [] := by
          by_contra hword
          exact hstart (startsTag_zero.2 ⟨hc, hword⟩)
        rw [startingWord, if_pos hnone]
        exact .nil
      next => exact .nil

/-! ## Tags written one behind the other -/

/-- That a text is the given words, each behind an at sign and in front of something that
is no tag and does not go on with the word. -/
inductive WritesTags : List Text → Text → Prop
  | nil : WritesTags [] []
  | cons {w gap rest : Text} {words : List Text} (word_ne_nil : w ≠ [])
      (word_chars : ∀ c ∈ w, Text.isWordChar c = true) (gap_noMark : '@' ∉ gap)
      (gap_ends : ∀ c, gap.head? = some c → Text.isWordChar c = false)
      (rest_writes : WritesTags words rest) : WritesTags (w :: words) ('@' :: (w ++ gap ++ rest))

/-- What holds no at sign adds no tag. -/
theorem tagWords_append_of_not_mem :
    ∀ {gap : Text}, '@' ∉ gap → ∀ s : Text, tagWords (gap ++ s) = tagWords s
  | [], _, _ => rfl
  | c :: gap, h, s => by
    rw [List.mem_cons, not_or] at h
    rw [List.cons_append, tagWords_cons, if_neg (Ne.symm h.1), List.nil_append,
      tagWords_append_of_not_mem h.2]

/-- A word ends at what is no word character. -/
theorem startingWord_append (hne : w ≠ []) (hw : ∀ c ∈ w, Text.isWordChar c = true)
    (hs : ∀ c, s.head? = some c → Text.isWordChar c = false) :
    startingWord (w ++ s) = [w] := by
  have hend : s.takeWhile Text.isWordChar = [] := by
    cases s with
    | nil => rfl
    | cons c s => rw [List.takeWhile_cons_of_neg (by simp [hs c rfl])]
  have htake : (w ++ s).takeWhile Text.isWordChar = w := by
    rw [List.takeWhile_append_of_pos hw, hend, List.append_nil]
  rw [startingWord, htake, if_neg hne]

/-- Such a text goes on with no word: it is over, or an at sign comes. -/
theorem WritesTags.head? (h : WritesTags words s) :
    ∀ c, s.head? = some c → Text.isWordChar c = false := by
  intro c hc
  cases h with
  | nil => cases hc
  | cons =>
    cases hc
    exact Text.isWordChar_at

theorem WritesTags.tagWords_eq (h : WritesTags words s) :
    tagWords s = words := by
  induction h with
  | nil => rfl
  | @cons w gap rest words hne hw hgap hend hrest ih =>
    have hmark : '@' ∉ w := by
      intro hmem
      have hat := hw _ hmem
      rw [Text.isWordChar_at] at hat
      cases hat
    -- with nothing in between the word ends at the next at sign
    have hstop : ∀ c, (gap ++ rest).head? = some c → Text.isWordChar c = false := by
      cases gap with
      | nil => exact hrest.head?
      | cons c gap => exact hend
    rw [tagWords_cons, if_pos rfl, List.append_assoc, startingWord_append hne hw hstop,
      tagWords_append_of_not_mem hmark, tagWords_append_of_not_mem hgap, ih]
    rfl

/-! ## The end of a word as a byte -/

/-- The word at the start of a piece, cut off at the byte where it ends. -/
def wordByBytes? (piece : Text) : Option Text :=
  let last := (Text.findByte? (!Text.isWordChar ·) piece).getD (Text.utf8 piece).length
  ((Text.cutAtByte? last piece).map (·.1)).filter fun w => !w.isEmpty

/-- The words directly behind the at signs of a text, cut off as bytes. -/
def tagWordsByBytes (s : Text) : List Text := ((Text.pieces '@' s).drop 1).filterMap wordByBytes?

theorem wordByBytes?_eq (piece : Text) :
    wordByBytes? piece = (some (piece.takeWhile Text.isWordChar)).filter fun w => !w.isEmpty := by
  have hcut := Text.cutAtByte?_findByte? (!Text.isWordChar ·) piece
  simp only [Bool.not_not] at hcut
  rw [wordByBytes?, hcut]
  rfl

theorem tagWordsByBytes_eq (s : Text) : tagWordsByBytes s = tagWords s := by
  rw [tagWordsByBytes, tagWords, List.filter_map, ← List.filterMap_eq_map, List.filterMap_filter]
  apply List.filterMap_congr
  intro piece _
  rw [wordByBytes?_eq, Option.filter_some]
  rfl

/-- **The grammar of tags.**  A text has one tag for each at sign that stands in front of a
word character, in order, and the tag is all of the word characters that stand there.  To
look for the end of a word as a byte comes to the same.  So a text in which each of some
words is written behind an at sign, and then something without an at sign that does not
go on with the word, has exactly these words as its tags. -/
theorem tagWords_grammar (s : Text) :
    List.Forall₂ (IsTagAt s) (tagStarts s) (tagWords s) ∧ tagWordsByBytes s = tagWords s ∧
      ∀ words, WritesTags words s → tagWords s = words :=
  ⟨forall₂_isTagAt s, tagWordsByBytes_eq s, fun _ h => h.tagWords_eq⟩

/-- Tags without anything between them, letters of two bytes, and at signs in front of a
sign of punctuation, of another at sign and of nothing. -/
theorem tagWords_grammar_of_glued_tags :
    let s : Text := "@wip@été_1-x, @b "
    let t : Text := "a@.b@@c@"
    WritesTags ["wip", "été_1", "b"] s ∧ tagWords s = ["wip", "été_1", "b"] ∧
      tagWordsByBytes s = ["wip", "été_1", "b"] ∧ tagStarts t = [5] ∧
      List.Forall₂ (IsTagAt t) [5] (tagWords t) := by
  intro s t
  have hfirst : ∀ c ∈ "wip".toList, Text.isWordChar c = true := List.all_eq_true.1 (by decide)
  have hsecond : ∀ c ∈ "été_1".toList, Text.isWordChar c = true := List.all_eq_true.1 (by decide)
  have hthird : ∀ c ∈ "b".toList, Text.isWordChar c = true := List.all_eq_true.1 (by decide)
  have hwrites : WritesTags ["wip", "été_1", "b"] s := by
    refine @WritesTags.cons _ [] _ _ (by decide) hfirst (by decide) nofun ?_
    refine @WritesTags.cons _ "-x, ".toList _ _ (by decide) hsecond (by decide) ?_ ?_
    · rintro _ ⟨⟩
      decide
    refine @WritesTags.cons _ [' '] _ _ (by decide) hthird (by decide) ?_ .nil
    rintro _ ⟨⟩
    decide
  obtain ⟨-, hbytes, hwords⟩ := tagWords_grammar s
  have hread := hwords _ hwrites
  have hstarts : tagStarts t = [5] := by decide
  refine ⟨hwrites, hread, hbytes.trans hread, hstarts, ?_⟩
  rw [← hstarts]
  exact (tagWords_grammar t).1

end Line

end Gherkin
